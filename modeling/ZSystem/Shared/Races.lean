import ZSystem.Shared.Semaphore

set_option autoImplicit false

/-!
# Data races

What the instructions of a program read and write besides its synchronisation objects, and when two threads
are about to access one location at the same time.
-/

namespace Posix

variable {T O L D V : Type} [DecidableEq T] [DecidableEq O]

inductive Access where
  | read
  | write
  deriving DecidableEq, Repr

/-- What a thread accesses next, or for as long as it waits. -/
abbrev Accesses (T O L D V : Type) := D -> T -> Status O L -> List (Access × V)

/-- The accesses of a program whose threads never wait inside an instruction. -/
def atPlaces (accesses : D -> T -> L -> List (Access × V)) : Accesses T O L D V
  | data, thread, .running pc => accesses data thread pc
  | _, _, _ => []

/-- The synchronisation objects that an instruction works on. -/
def Instr.uses : Instr T O L D -> List O
  | .lock object _ | .unlock object _ | .signal object _ | .broadcast object _ => [object]
  | .acquire object _ | .release object _ => [object]
  | .wait cv mutex _ => [cv, mutex]
  | _ => []

/-- A thread that waits needs the condition variable and the mutex to come back. -/
def Program.uses (program : Program T O L D) (thread : T) : Status O L -> List O
  | .absent => []
  | .running pc => (program.code thread pc).uses
  | .waiting cv mutex _ => [cv, mutex]

variable {accesses : Accesses T O L D V} {program : Program T O L D} {state : State T O L D} {one two thread : T}
  {access : Access} {location : V} {mutex sem : O} {holds : T -> L -> Prop}

def State.Touches (state : State T O L D) (accesses : Accesses T O L D V) (thread : T) (access : Access)
    (location : V) : Prop :=
  (access, location) ∈ accesses state.data thread (state.status thread)

omit [DecidableEq T] [DecidableEq O] in
theorem touches_atPlaces {places : D -> T -> L -> List (Access × V)} :
    state.Touches (atPlaces places) thread access location ↔
      ∃ pc, state.status thread = .running pc ∧ (access, location) ∈ places state.data thread pc := by
  cases here : state.status thread <;> simp [State.Touches, atPlaces, here]

/-- Two threads are about to access a location, and one of them writes it. -/
def Race (accesses : Accesses T O L D V) (state : State T O L D) (one two : T) (location : V) : Prop :=
  one ≠ two ∧ state.Touches accesses one .write location ∧ ∃ access, state.Touches accesses two access location

/-- At most one thread is at the places of `holds`. -/
def Alone (holds : T -> L -> Prop) (status : T -> Status O L) : Prop :=
  ∀ one two pc place, status one = .running pc -> status two = .running place ->
    holds one pc -> holds two place -> one = two

omit [DecidableEq T] in
theorem Held.alone (held : Held program mutex holds (state.owner mutex) state.status) :
    Alone holds state.status :=
  fun _ _ _ _ here there holding also =>
    Option.some.inj (((held.owns here).mpr holding).symm.trans ((held.owns there).mpr also))

end Posix
