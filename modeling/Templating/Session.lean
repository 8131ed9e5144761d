import Templating.Batch
import Templating.Configuration
import Templating.Library
import Templating.Packaging
import Templating.Session.Request

/-!
# Sessions

A session serves compile requests over a library. It generates the requested
templates and whatever they call, callees first, and remembers which template
depended on which when it was last requested. From that it knows which
templates are out of date: one counts as changed if its own source or that of a
dependency changed since, or if a request for something else has fetched such a
change away.
-/

namespace Templating

structure Session (L : Type) where
  configuration : Configuration
  library : L
  /-- What each template depended on when it was last requested. -/
  dependencies : Table Name Dependencies := {}
  /-- The parameters that each template declared last. -/
  params : Table Name (List Param) := {}
  /-- The places of generated units by identifier. -/
  addresses : Table String Address := {}
  /-- Requested templates that are known to be out of date. -/
  stale : List Name := []
  /-- Where the hook was asked, last first. -/
  intercepted : List Interception := []

namespace Session

variable {L : Type}

/-! ## What is out of date -/

/-- Requested templates that depended on `name`, in order. -/
def templatesUsing (s : Session L) (name : Name) : List Name :=
  Name.sort ((s.dependencies.entries.filter fun e => e.2.contains name).map Prod.fst)

/-- Count templates as out of date. -/
def markStale (s : Session L) (names : List Name) : Session L :=
  { s with stale := names.foldl (fun stale n => if n ∈ stale then stale else n :: stale) s.stale }

/-- The templates are up to date. -/
def settle (s : Session L) (names : List Name) : Session L :=
  { s with stale := s.stale.filter fun n => n ∉ names }

/-- Whether a template or anything it depends on changed since it was last
requested. -/
def hasChanged [Library L] (s : Session L) (name : Name) : Bool :=
  decide (name ∈ s.stale) || Library.hasChanged s.library name ||
    match s.dependencies.get? name with
    | some d => d.order.any (Library.hasChanged s.library)
    | none => false

/-- Count a template and those that depend on it as changed, until each of them
is requested again. -/
def invalidate (s : Session L) (name : Name) : Session L :=
  let s := s.markStale [name]
  let s := s.markStale (s.templatesUsing name)
  { s with params := s.params.erase name }

/-! ## Generating one template -/

/-- A session in the course of a request. -/
structure Running (L : Type) where
  session : Session L
  request : Request := {}

/-- Generates a template that a call refers to. -/
abbrev Enter (L : Type) : Type :=
  Name → Option Location → StateM (Running L) (Except Failure Address)

namespace Running

/-- The parameters of a template: those declared in this request before those
of earlier ones. -/
def paramsOf (r : Running L) (name : Name) : List Param :=
  ((r.request.params.get? name).or (r.session.params.get? name)).getD []

def declare (r : Running L) (name : Name) (params : List Param) : Running L :=
  { r with
    request := { r.request with params := r.request.params.set name params }
    session := { r.session with params := r.session.params.set name params } }

def refer (r : Running L) (caller callee : Name) : Running L :=
  { r with request := { r.request with references := r.request.references.add caller callee } }

def reserve (r : Running L) (a : Address) : Running L :=
  { r with request :=
    { r.request with reserved := r.request.reserved.set (a.identifier, a.target) a.template } }

def intercepted (r : Running L) (place : Interception) : Running L :=
  { r with session := { r.session with intercepted := place :: r.session.intercepted } }

/-- A unit is finished. -/
def deliver (r : Running L) (u : SourceUnit) : Running L where
  request := { r.request with units := r.request.units.push u }
  session := { r.session with addresses := r.session.addresses.set u.identifier u.address }

end Running

/-- Find the callee of a call by generating it first, if need be. -/
def resolveCall (enter : Enter L) (call : CallRef) :
    StateM (Running L) (Except Failure Callee) := do
  modify fun r => r.refer call.caller call.name
  match ← enter call.name (some ⟨call.caller, call.line⟩) with
  | .error failure => return .error failure
  | .ok address => return .ok ⟨address, (← get).paramsOf call.name⟩

/-- What the generation of a unit asks of the session. -/
def linker (enter : Enter L) : Linker (Running L) where
  resolve := resolveCall enter
  declare name params := modify fun r => r.declare name params
  intercept place := do
    match (← get).session.configuration.hook? with
    | some hook =>
        modify fun r => r.intercepted place
        return hook place
    | none => return ""

/-- Fetch the source of a template. If it had changed, those that depended on
it are out of date from now on, whether or not this request is about them. -/
def fetch [Library L] (name : Name) (referencedFrom? : Option Location) :
    StateM (Running L) (Except Failure String) := do
  let r ← get
  let (answer, library) := Library.fetch r.session.library name
  let fetched : Session L := { r.session with library }
  match answer with
  | .error fault =>
      set { r with session := fetched }
      return .error (.unreadable name fault)
  | .ok none =>
      set { r with session := fetched }
      return .error (.notFound name referencedFrom?)
  | .ok (some source) =>
      let users := if Library.hasChanged r.session.library name then
        fetched.templatesUsing name else []
      set { r with session := fetched.markStale users }
      return .ok source

/-- Generate the unit of a template from its source. -/
def generateUnit (enter : Enter L) (address : Address) (source : String) :
    StateM (Running L) (Except Failure Address) := do
  let setting := (← get).session.configuration.generation
  match ← Generation.generate setting (linker enter) address source with
  | .error failure => return .error failure
  | .ok unit =>
      modify fun r => r.deliver unit
      return .ok address

/-- Generate a template, unless this request has done so or is doing so. Its
place is reserved first, so a template may call itself. -/
def generateWith [Library L] (enter : Enter L) : Enter L := fun name referencedFrom? => do
  let r ← get
  let address := Address.ofName name r.session.configuration.package
  match r.request.reserved.get? (address.identifier, address.target) with
  | some holder =>
      if holder = name then return .ok address
      else return .error (.collision address.identifier holder name)
  | none =>
      set (r.reserve address)
      match ← fetch name referencedFrom? with
      | .error failure => return .error failure
      | .ok source => generateUnit enter address source

/-- Generate a template with at most `room` templates in the middle of one
another below it. Each of them is a different one that the library holds, so
the capacity of the library is room enough, and the last case is not reached. -/
def generateInto [Library L] : Nat → Enter L
  | 0 => generateWith fun name referencedFrom? => return .error (.notFound name referencedFrom?)
  | room + 1 => generateWith (generateInto room)

/-! ## Requests -/

/-- Note what a requested template depends on. -/
def noteDependencies (r : Running L) (name : Name) : Running L :=
  { r with session := { r.session with
    dependencies := r.session.dependencies.set name (r.request.references.closure name) } }

/-- Generate requested templates one after the other. -/
def generateEach [Library L] (room : Nat) : List Name →
    StateM (Running L) (Except Failure Unit)
  | [] => return .ok ()
  | name :: rest => do
      match ← generateInto room name none with
      | .error failure => return .error failure
      | .ok _ =>
          modify fun r => noteDependencies r name
          generateEach room rest

/-- Generate templates and everything they call. -/
def generate [Library L] (names : List Name) : StateM (Session L) (Except Failure Batch) :=
  fun s =>
    match generateEach (Library.capacity s.library) names { session := s } with
    | (.ok (), r) => (.ok ⟨r.request.units.toList⟩, r.session.settle names)
    | (.error failure, r) => (.error failure, r.session)

/-- Apply a request to every template of the library. -/
def withAllNames [Library L] {α σ : Type} (library : σ → L)
    (request : List Name → StateM σ (Except Failure α)) : StateM σ (Except Failure α) := do
  match Library.names (library (← get)) with
  | .error fault => return .error (.unlisted fault)
  | .ok names => request names

/-- Generate every template of the library. -/
def generateAll [Library L] : StateM (Session L) (Except Failure Batch) :=
  withAllNames Session.library generate

/-! ## Compiling what was generated -/

/-- Why generated units are not accepted. -/
inductive Refusal where
  | io (fault : Files.Fault)
  | problems (problems : List OutputProblem)

/-- Takes the units of a batch and the class path, and does something with
them, on a state of its own. -/
abbrev Backend (τ : Type) : Type :=
  List SourceUnit → List String → StateM τ (Except Refusal Unit)

/-- Generate templates and hand the units, if there are any, to the backend
that suits their target. -/
def compileWith [Library L] {τ : Type} (backend : Target → Backend τ) (names : List Name) :
    StateM (Session L × τ) (Except Failure Batch) :=
  fun (s, t) =>
    let (answer, s) := generate names s
    match answer with
    | .error failure => (.error failure, s, t)
    | .ok batch =>
        match batch.target with
        | .error failure => (.error failure, s, t)
        | .ok none => (.ok batch, s, t)
        | .ok (some target) =>
            let (verdict, t) := backend target batch.units s.configuration.classPath t
            match verdict with
            | .ok () => (.ok batch, s, t)
            | .error (.io fault) => (.error (.unwritable fault), s, t)
            | .error (.problems problems) =>
                (.error (.rejected (problems.map batch.translate)), s, t)

/-- Generate templates and hand the units to a backend. -/
def precompileWith [Library L] {τ : Type} (backend : Backend τ) (names : List Name) :
    StateM (Session L × τ) (Except Failure Batch) :=
  compileWith (fun _ => backend) names

/-- Writes the files of a batch below a directory. -/
def delivering (delivery : Delivery) (here : Files.Place) (directory : String) :
    Backend Files.Tree := fun units _ tree =>
  match Packaging.deliver delivery here directory units tree with
  | (tree, none) => (.ok (), tree)
  | (tree, some fault) => (.error (.io fault), tree)

/-- Generate templates and write their units to the output directory, as seen
from the place `here`. -/
def precompile [Library L] (here : Files.Place) (names : List Name) :
    StateM (Session L × Files.Tree) (Except Failure Batch) := do
  let configuration := (← get).1.configuration
  let backend (target : Target) := delivering
    (configuration.delivery?.getD (Delivery.ofTarget target)) here configuration.output
  compileWith backend names

/-- Precompile every template of the library. -/
def precompileAll [Library L] (here : Files.Place) :
    StateM (Session L × Files.Tree) (Except Failure Batch) :=
  withAllNames (fun s => s.1.library) (precompile here)

/-! ## Reports -/

/-- The source of a template for a report, as far as it is to be had. Fetching
it counts, as any fetching does. -/
def source [Library L] (name : Name) : StateM (Session L) (Option String) := fun s =>
  match Library.fetch s.library name with
  | (.ok source?, library) => (source?, { s with library })
  | (.error _, library) => (none, { s with library })

end Session

end Templating
