import ZSystem.Thread.Turns

set_option autoImplicit false

/-!
# Cancelled waiters

A thread that is cancelled inside `zs__thread_wait` takes `waiting_threads_mutex` again before
`zs__thread_cleanup` runs, which does not know of it.
-/

namespace ZSystem.Thread

open Posix Transition

/-- The places of `zs__thread_cleanup`. -/
def PC.cleans : PC -> Bool
  | .cleanupLockMap | .cleanupRemove | .cleanupUnlockMap | .cleanupLockRunning | .cleanupDecrement | .cleanupSignal
  | .cleanupUnlockRunning | .cleanupLockEntry | .cleanupTest | .cleanupBroadcast | .cleanupUnlockEntry
  | .cleanupDestroy => true
  | _ => false

/-- From here a thread that owns `thread_map_mutex` comes to its unlock and keeps the list whole. -/
def Data.passes (data : Data) (thread : ThreadId) : PC -> Prop
  | .waitFind other => other ∈ data.threadMap -> data.executed other ≠ 0
  | .waitLockEntry other => data.executed other ≠ 0
  | .cleanupRemove => ∀ own, thread = .library own -> data.threadMap[1]? ≠ some own
  | _ => True

/-- What a cleanup needs of the list of the threads and of whoever has it. -/
def Served (state : State) (handle : Nat) : PC -> Prop
  | .cleanupLockMap => state.data.dangling = false ∧
      ∀ thread pc, state.status thread = .running pc -> state.data.passes thread pc
  | .cleanupRemove => state.data.reachesFreed (.library handle) .cleanupRemove = false
  | _ => True

/-- A thread that has ended leaves no lock behind, and so a cleanup gets the locks that it needs. -/
structure LocksReleased (state : State) : Prop where
  map : ∀ own, state.status (.library own) = .running .finished ->
    state.owner .threadMapMutex ≠ some (.library own)
  -- Until `zs__thread_execute` the mutex belongs to the caller of `zs__thread_create` by design.
  entry : ∀ own handle, state.status (.library own) = .running .finished ->
    state.data.executed handle ≠ 0 -> state.owner (.waitingThreadsMutex handle) ≠ some (.library own)
  finishes : ∀ handle pc, state.status (.library handle) = .running pc -> pc.cleans = true ->
    Served state handle pc ->
    ∃ final, Reachable step state final ∧ final.status (.library handle) = .running .finished

def inWait : Status Obj PC -> Bool
  | .waiting (.waitingThreadsCv _) _ _ => true
  | _ => false

/-- No cancellation acts on a thread inside the `pthread_cond_wait` of `zs__thread_wait`. -/
def WaitsUncancelled (state : State) : Action -> Prop
  | .interrupt thread => inWait (state.status thread) = false
  | _ => True

instance (state : State) : (action : Action) -> Decidable (WaitsUncancelled state action)
  | .interrupt thread => inferInstanceAs (Decidable (inWait (state.status thread) = false))
  | .run _ _ | .call _ _ | .wake _ => instDecidableTrue

/-- Whoever owns the mutex has it from `zs__thread_create`, or is at a place that owns it. -/
def Owns (state : State) (handle : Nat) (thread : ThreadId) : Prop :=
  (state.data.executed handle = 0 ∧ state.data.creator handle = some thread) ∨
    ∃ pc, state.status thread = .running pc ∧ HoldsEntry handle thread pc

structure Owned (state : State) : Prop where
  valid : Valid state
  owns : ∀ handle thread, state.owner (.waitingThreadsMutex handle) = some thread -> Owns state handle thread
  returns : ∀ thread cv mutex pc, state.status thread = .waiting cv mutex pc -> pc ≠ .cleanupLockMap

section

variable {state next : State} {action : Action} {handle : Nat} {thread : ThreadId} {pc place : PC}

theorem code_lock_entry (instr : code thread pc = .lock (.waitingThreadsMutex handle) place) :
    (∃ args, pc = .createLockGate args ∧ args.thread = handle) ∨ HoldsEntry handle thread place := by
  cases pc <;> cases thread <;> simp [code, goTo, branch, lookUp, withRecord, inExecute] at instr
  case createLockGate.main | createLockGate.library | createLockGate.outside =>
    exact Or.inl ⟨_, rfl, instr.1⟩
  all_goals simp [← instr.2, instr.1, HoldsEntry]

theorem HoldsEntry.moves {data after : Data} {pick : Nat} {status : Status Obj PC}
    (owner : Obj -> Option ThreadId) (holds : HoldsEntry handle thread pc)
    (ran : program.outcome thread pick pc data = some (after, status)) :
    (code thread pc).owners thread owner (.waitingThreadsMutex handle) = none ∨
      ∃ place, status = .running place ∧ HoldsEntry handle thread place := by
  cases pc <;> simp only [HoldsEntry] at holds <;> subst holds <;>
    simp only [Program.outcome, program, code, Instr.result, goTo, branch, withRecord,
      Option.map_some, Option.some.injEq, Prod.mk.injEq] at ran
  case waitCond | waitUnlockEntry | startUnlock | cleanupUnlockEntry =>
    exact Or.inl (by simp [code, withRecord, Instr.owners])
  case cleanupTest =>
    refine Or.inr ⟨_, ran.2.symm, ?_⟩
    split_ifs <;> rfl
  all_goals exact Or.inr ⟨_, ran.2.symm, rfl⟩

theorem creator_kept (taken : step state action = some next) (known : state.data.creator handle ≠ none) :
    next.data.creator handle = state.data.creator handle := by
  cases step_cases taken with
  | @instr thread pick pc after here performed =>
      obtain ⟨-, ran, -, -⟩ := outcome_parts performed
      change (program.note thread pc after.data).creator handle = _
      rcases outcome_writes ran with same | writes
      · rw [same]
      · rw [writes.creator]
  | @call thread pc place data here chosen =>
      change data.creator handle = _
      obtain ⟨args, -, unused, rfl, -⟩ | ⟨-, rfl, -⟩ := calls_cases chosen
      · have differ : handle ≠ args.thread := fun same => known (same ▸ unused)
        simp [differ]
      · rfl
  | _ => rfl

theorem Owned.keeps (owned : Owned state) (taken : step state action = some next)
    (before : state.owner (.waitingThreadsMutex handle) = some thread)
    (owner : next.owner (.waitingThreadsMutex handle) = some thread) : Owns next handle thread := by
  obtain ⟨closed, creator⟩ | ⟨pc, here, holds⟩ := owned.owns handle thread before
  · obtain same | ⟨actor, pick, rfl, unlocks⟩ := executes handle taken
    · exact Or.inl ⟨same.trans closed, (creator_kept taken (by simp [creator])).trans creator⟩
    · obtain ⟨-, -, owners, -⟩ := run_parts unlocks taken
      simp [owners, program, code, Instr.owners] at owner
  · refine Or.inr ?_
    cases arrival taken thread with
    | stays same => exact ⟨pc, same ▸ here, holds⟩
    | instr run there enabled ran owners =>
        cases here.symm.trans there
        refine (holds.moves state.owner ran).resolve_left fun free => ?_
        rw [owners] at owner
        exact absurd (owner.symm.trans free) (by simp)
    | born _ _ _ _ absent => simp [here] at absent
    | resume _ there => simp [here] at there
    | call _ there chosen =>
        cases here.symm.trans there
        obtain ⟨_, -, -, -, rfl | ⟨rfl, -⟩⟩ | ⟨rfl, -⟩ := calls_cases chosen <;> exact holds.elim
    | stop _ there _ point =>
        cases here.symm.trans there
        obtain rfl : pc = .caller := by simpa [program] using point
        exact holds.elim
    | abandon _ there => simp [here] at there

theorem Owned.takes (owned : Owned state) {pick : Nat}
    (taken : step state (.run thread pick) = some next) (there : next.status thread = .running place)
    (source : (∃ pc, state.status thread = .running pc ∧
        code thread pc = .lock (.waitingThreadsMutex handle) place) ∨
      ∃ cv, state.status thread = .waiting cv (.waitingThreadsMutex handle) place) :
    Owns next handle thread := by
  rcases source with ⟨pc, here, instr⟩ | ⟨cv, here⟩
  · obtain ⟨args, rfl, rfl⟩ | holds := code_lock_entry instr
    · -- A mutex that has just been made has not been unlocked by `zs__thread_execute` yet.
      have creating := (owned.valid.at here).place.1
      have closed : state.data.executed args.thread = 0 := by
        by_contra opened
        exact creating.gated.mp (owned.valid.data.executed _ opened)
      obtain same | ⟨actor, other, run, unlocks⟩ := executes args.thread taken
      · exact Or.inl ⟨same.trans closed,
          (creator_kept taken (by simp [creating.mine])).trans creating.mine⟩
      · cases run
        cases here.symm.trans unlocks
    · exact Or.inr ⟨place, there, holds⟩
  · obtain ⟨-, -, wrong, -⟩ | ⟨other, -, same, -, rfl | rfl⟩ := (owned.valid.waits here).2
    · cases wrong
    · cases same
      exact Or.inr ⟨_, there, rfl⟩
    · exact absurd rfl (owned.returns thread cv _ _ here)

theorem Owned.preserved (owned : Owned state) (uncancelled : WaitsUncancelled state action)
    (taken : step state action = some next) : Owned next := by
  refine ⟨owned.valid.preserved taken, fun handle thread owner => ?_, fun thread cv mutex pc there => ?_⟩
  · obtain before | ⟨pick, place, rfl, there, source⟩ := owner_taken taken owner
    · exact owned.keeps taken before owner
    · exact owned.takes taken there source
  · cases arrival taken thread with
    | stays same => exact owned.returns thread cv mutex pc (same ▸ there)
    | instr _ here _ ran =>
        rw [there] at ran
        obtain ⟨_, wrong⟩ | ⟨_, _, _, same, instr⟩ := outcome_status ran
        · cases wrong
        · cases same
          obtain ⟨-, -, -, -, rfl⟩ | ⟨_, -, -, -, rfl⟩ := code_wait instr <;> exact PC.noConfusion
    | abandon interrupt here handled =>
        subst interrupt
        obtain ⟨rfl, -⟩ | ⟨other, rfl, -⟩ := (owned.valid.waits here).2
        · simp [program, ThreadId.isLibrary] at handled
        · simp [WaitsUncancelled, here, inWait] at uncancelled
    | born _ _ _ _ _ running | resume _ _ _ _ running | call _ _ _ running | stop _ _ _ _ running =>
        cases there.symm.trans running

theorem initial_owned : Owned initial :=
  ⟨initial_valid, by simp [initial], fun thread cv mutex pc there => by cases thread <;> simp [initial] at there⟩

/-! ## A lock that is given back -/

/-- What the steps of `thread` leave to the others. -/
structure Gives (thread : ThreadId) (state next : State) : Prop where
  owned : Owned next
  reached : Reachable step state next
  others : ∀ other pc, other ≠ thread -> state.status other = .running pc -> next.status other = .running pc
  threadMap : next.data.threadMap = state.data.threadMap
  dangling : next.data.dangling = state.data.dangling
  executed : ∀ other, state.data.executed other ≠ 0 -> next.data.executed other ≠ 0

/-- A place that neither locks nor walks through the list nor changes it. -/
structure PC.Plain (thread : ThreadId) (pc : PC) : Prop where
  active : pc.rests = false
  unlocked : ∀ mutex place, code thread pc ≠ .lock mutex place
  defined : ∀ data : Data, data.reachesFreed thread pc = false
  inserts : ∀ args, pc ≠ .createInsert args
  removes : pc ≠ .cleanupRemove

def State.rank (state : State) (thread : ThreadId) : Nat := (state.status thread).weight PC.weight

theorem Gives.refl (owned : Owned state) : Gives thread state state :=
  ⟨owned, .refl, fun _ _ _ here => here, rfl, rfl, fun _ => id⟩

theorem Gives.trans {middle : State} (first : Gives thread state middle) (second : Gives thread middle next) :
    Gives thread state next :=
  ⟨second.owned, first.reached.trans second.reached,
    fun other pc differ here => second.others other pc differ (first.others other pc differ here),
    second.threadMap.trans first.threadMap, second.dangling.trans first.dangling,
    fun other opened => second.executed other (first.executed other opened)⟩

theorem HoldsEntry.plain (holds : HoldsEntry handle thread pc) : pc.Plain thread where
  active := by cases pc <;> first | rfl | exact holds.elim
  unlocked _ _ instr := (code_lock instr).2.2 handle holds
  defined _ := by cases pc <;> first | rfl | exact holds.elim
  inserts _ same := by simp [same, HoldsEntry] at holds
  removes same := by simp [same, HoldsEntry] at holds

theorem plain_of_holdsRunning (holds : pc.holdsRunning = true) : pc.Plain thread where
  active := by cases pc <;> first | rfl | simp [PC.holdsRunning] at holds
  unlocked _ _ instr := by simp [(code_lock instr).2.1] at holds
  defined _ := by cases pc <;> first | rfl | simp [PC.holdsRunning] at holds
  inserts _ same := by simp [same, PC.holdsRunning] at holds
  removes same := by simp [same, PC.holdsRunning] at holds

/-- A thread that finds its lock free and its walk defined goes on. -/
theorem Owned.goes (owned : Owned state) (here : state.status thread = .running pc) (active : pc.rests = false)
    (free : ∀ mutex place, code thread pc = .lock mutex place -> state.owner mutex = none)
    (defined : state.data.reachesFreed thread pc = false) :
    ∃ next, step state (.run thread 0) = some next ∧ Owned next ∧ next.rank thread < state.rank thread ∧
      ∀ other pc, other ≠ thread -> state.status other = .running pc -> next.status other = .running pc := by
  obtain ⟨after, status, ran⟩ := outcome_some (owned.valid.at here).placed active defined
  obtain ⟨next, taken, there, -, still⟩ := goes_on here ran (owned.valid.enabled here free defined)
  have uncancelled : WaitsUncancelled state (.run thread 0) := trivial
  refine ⟨next, taken, owned.preserved uncancelled taken, ?_, fun other pc differ running => ?_⟩
  · simp only [Program.outcome, Option.map_eq_some_iff, Prod.mk.injEq] at ran
    obtain ⟨⟨_, _⟩, result, -, rfl⟩ := ran
    have shorter := result_shorter result
    rw [State.rank, State.rank, there, here]
    exact lt_of_le_of_lt (Nat.le_add_right _ _) shorter
  · rw [still other differ (by simp [running]), running]

theorem owner_before {pick : Nat} {mutex : Obj} {owner : ThreadId} (here : state.status thread = .running pc)
    (taken : step state (.run thread pick) = some next) (unlocked : ∀ place, code thread pc ≠ .lock mutex place)
    (owns : next.owner mutex = some owner) : state.owner mutex = some owner := by
  obtain before | ⟨_, place, run, -, ⟨_, there, instr⟩ | ⟨_, waiting⟩⟩ := owner_taken taken owns
  · exact before
  · cases run
    cases here.symm.trans there
    exact absurd instr (unlocked place)
  · cases run
    simp [here] at waiting

theorem Owned.goesPlain (owned : Owned state) (here : state.status thread = .running pc) (plain : pc.Plain thread) :
    ∃ next, Gives thread state next ∧ next.rank thread < state.rank thread ∧
      ∀ mutex owner, next.owner mutex = some owner -> state.owner mutex = some owner := by
  obtain ⟨next, taken, kept, smaller, others⟩ :=
    owned.goes here plain.active (fun _ _ instr => absurd instr (plain.unlocked _ _)) (plain.defined _)
  have list : next.data.threadMap = state.data.threadMap ∧ next.data.dangling = state.data.dangling := by
    obtain same | ⟨_, _, args, run, there, -⟩ | ⟨_, _, run, there, -⟩ := threadMap_next taken
    · exact same
    · cases run
      cases here.symm.trans there
      exact absurd rfl (plain.inserts args)
    · cases run
      cases here.symm.trans there
      exact absurd rfl plain.removes
  exact ⟨next, ⟨kept, .tail .refl trivial taken, others, list.1, list.2, (owned.valid.grows taken).executed⟩, smaller,
    fun _ _ owns => owner_before here taken (fun _ => plain.unlocked _ _) owns⟩

/-- A mutex whose owner is always at a plain place is given back. -/
theorem Owned.gives {mutex : Obj} (owned : Owned state) (owner : state.owner mutex = some thread)
    (plain : ∀ next, Gives thread state next -> next.owner mutex = some thread ->
      ∃ pc, next.status thread = .running pc ∧ pc.Plain thread) :
    ∃ next, Gives thread state next ∧ next.owner mutex = none := by
  obtain ⟨final, -, ⟨gives, -⟩, free⟩ := exists_reach_of_rank step
    (fun next => Gives thread state next ∧ (next.owner mutex = none ∨ next.owner mutex = some thread))
    (fun next => next.owner mutex = none) (fun next => next.rank thread)
    (fun next ⟨gives, owner⟩ taken => by
      have mine := owner.resolve_left taken
      obtain ⟨pc, here, place⟩ := plain next gives mine
      obtain ⟨after, more, smaller, owners⟩ := gives.owned.goesPlain here place
      refine ⟨after, more.reached, ⟨gives.trans more, ?_⟩, smaller⟩
      refine or_iff_not_imp_left.mpr fun owned => ?_
      obtain ⟨other, owns⟩ := Option.ne_none_iff_exists'.mp owned
      rw [owns, ← owners mutex other owns, mine])
    ⟨.refl owned, Or.inr owner⟩
  exact ⟨final, gives, free⟩

theorem Owned.gives_running (owned : Owned state) (owner : state.owner .threadsRunningMutex = some thread) :
    ∃ next, Gives thread state next ∧ next.owner .threadsRunningMutex = none :=
  owned.gives owner fun next gives owns => by
    obtain ⟨pc, here, holds⟩ := (gives.owned.valid.running.owner thread).mp owns
    exact ⟨pc, here, plain_of_holdsRunning holds⟩

theorem Owned.gives_entry (owned : Owned state) (executed : state.data.executed handle ≠ 0)
    (owner : state.owner (.waitingThreadsMutex handle) = some thread) :
    ∃ next, Gives thread state next ∧ next.owner (.waitingThreadsMutex handle) = none :=
  owned.gives owner fun next gives owns => by
    obtain ⟨closed, -⟩ | ⟨pc, here, holds⟩ := gives.owned.owns handle thread owns
    · exact absurd closed (gives.executed handle executed)
    · exact ⟨pc, here, holds.plain⟩

/-- A cleanup waits for the map, whose owner is going to give it back. -/
structure MapServed (thread : ThreadId) (handle : Nat) (state : State) : Prop where
  owned : Owned state
  waits : state.status (.library handle) = .running .cleanupLockMap
  owner : state.owner .threadMapMutex = none ∨ state.owner .threadMapMutex = some thread
  intact : state.data.dangling = false
  passes : ∀ pc, state.status thread = .running pc -> state.data.passes thread pc

/-- The step of the owner keeps the list whole, and leaves it with the map or gives the map back. -/
theorem MapServed.goes (served : MapServed thread handle state) (here : state.status thread = .running pc)
    (holds : pc.holdsMap = true) (active : pc.rests = false)
    (free : ∀ mutex place, code thread pc = .lock mutex place -> state.owner mutex = none) :
    ∃ next, Reachable step state next ∧ MapServed thread handle next ∧ next.rank thread < state.rank thread := by
  obtain ⟨next, taken, owned, smaller, others⟩ := served.owned.goes here active free (not_freed served.intact _ _)
  have other : .library handle ≠ thread := by
    rintro rfl
    cases here.symm.trans served.waits
    cases holds
  have source {place : PC} (inner : place.inner = true) (there : next.status thread = .running place) :
      Source state.data thread pc (.running place) := by
    obtain same | ⟨_, _, run, before, -, -, source⟩ := served.owned.valid.arrives taken inner there
    · simp [State.rank, there, same] at smaller
    · cases here.symm.trans before
      exact source
  have waits := others _ _ other served.waits
  refine ⟨next, .tail .refl trivial taken, ⟨owned, waits, ?_, ?_, fun place there => ?_⟩, smaller⟩
  · refine or_iff_not_imp_left.mpr fun known => ?_
    obtain ⟨owner, owns⟩ := Option.ne_none_iff_exists'.mp known
    obtain before | ⟨_, place, run, -⟩ := owner_taken taken owns
    · rw [owns, ← before]
      exact served.owner.resolve_left (by simp [before])
    · cases run
      exact owns
  · obtain same | ⟨_, _, _, -, -, -, same⟩ | ⟨own, _, run, removing, removed⟩ := threadMap_next taken
    · exact same.2.trans served.intact
    · exact same.trans served.intact
    · cases run
      exact unregister_intact removed served.intact (served.passes _ removing own rfl)
  · cases place with
    | waitFind sought =>
        obtain rfl : pc = .waitLockMap sought := source rfl there
        cases holds
    | waitLockEntry sought =>
        obtain ⟨rfl, found⟩ : pc = .waitFind sought ∧ _ := source rfl there
        have opened := served.passes _ here (Data.find_iff.mp found).1
        exact (served.owned.valid.grows taken).executed sought opened
    | cleanupRemove =>
        obtain rfl : pc = .cleanupLockMap := source rfl there
        cases holds
    | _ => trivial

theorem MapServed.gives (served : MapServed thread handle state) (owner : state.owner .threadMapMutex = some thread) :
    ∃ next, Reachable step state next ∧ MapServed thread handle next ∧ next.rank thread < state.rank thread := by
  obtain ⟨pc, here, holds⟩ := (served.owned.valid.map.owner thread).mp owner
  have active : pc.rests = false := by cases pc <;> first | rfl | simp [PC.holdsMap] at holds
  by_cases free : ∀ mutex place, code thread pc = .lock mutex place -> state.owner mutex = none
  · exact served.goes here holds active free
  · simp only [not_forall] at free
    obtain ⟨mutex, place, instr, taken⟩ := free
    -- Who owns the map only ever waits for the mutex of a thread, which somebody else gives back.
    obtain ⟨sought, rfl, rfl⟩ : ∃ sought, pc = .waitLockEntry sought ∧ mutex = .waitingThreadsMutex sought := by
      have wants := (code_lock instr).1
      cases pc <;> simp only [PC.holdsMap, Bool.false_eq_true] at holds <;> cases mutex <;>
        simp [Wants, PC.holdsMap] at wants
      exact ⟨_, rfl, wants ▸ rfl⟩
    obtain ⟨holder, owns⟩ := Option.ne_none_iff_exists'.mp taken
    have opened : state.data.executed sought ≠ 0 := served.passes _ here
    have apart {other : ThreadId} {pc : PC} (there : state.status other = .running pc)
        (away : ¬ HoldsEntry sought other pc) : other ≠ holder := by
      rintro rfl
      obtain ⟨closed, -⟩ | ⟨pc', running, holds⟩ := served.owned.owns sought _ owns
      · exact opened closed
      · cases there.symm.trans running
        exact away holds
    obtain ⟨middle, gives, unlocked⟩ := served.owned.gives_entry opened owns
    have still := gives.others _ _ (apart here id) here
    have served : MapServed thread handle middle :=
      ⟨gives.owned, gives.others _ _ (apart served.waits id) served.waits,
        Or.inr ((gives.owned.valid.map.owner thread).mpr ⟨_, still, rfl⟩), gives.dangling.trans served.intact,
        fun pc there => by
          cases there.symm.trans still
          exact gives.executed sought opened⟩
    obtain ⟨next, reached, kept, smaller⟩ := served.goes still rfl rfl fun mutex place instr => by
      cases instr
      exact unlocked
    refine ⟨next, gives.reached.trans reached, kept, ?_⟩
    simpa [State.rank, still, here] using smaller

theorem Owned.gives_map (owned : Owned state) (here : state.status (.library handle) = .running .cleanupLockMap)
    (served : Served state handle .cleanupLockMap) :
    ∃ next, Reachable step state next ∧ Owned next ∧ next.status (.library handle) = .running .cleanupLockMap ∧
      next.owner .threadMapMutex = none ∧ next.data.dangling = false := by
  cases owner : state.owner .threadMapMutex with
  | none => exact ⟨state, .refl, owned, here, owner, served.1⟩
  | some thread =>
      obtain ⟨final, reached, kept, free⟩ := exists_reach_of_rank step (MapServed thread handle)
        (fun next => next.owner .threadMapMutex = none) (fun next => next.rank thread)
        (fun next served taken => served.gives (served.owner.resolve_left taken))
        ⟨owned, here, Or.inr owner, served.1, served.2 thread⟩
      exact ⟨final, reached, kept.owned, kept.waits, free, kept.intact⟩

/-! ## A cleanup that gets its locks -/

def Finishes (handle : Nat) (state : State) : Prop :=
  ∃ final, Reachable step state final ∧ final.status (.library handle) = .running .finished

/-- The locks that a cleanup still needs once it has removed its entry are given back. -/
theorem Owned.frees (owned : Owned state) (here : state.status (.library handle) = .running pc)
    (removed : pc.removed = true) :
    ∃ next, Reachable step state next ∧ Owned next ∧ next.status (.library handle) = .running pc ∧
      ∀ mutex place, code (.library handle) pc = .lock mutex place -> next.owner mutex = none := by
  by_cases free : ∀ mutex place, code (.library handle) pc = .lock mutex place -> state.owner mutex = none
  · exact ⟨state, .refl, owned, here, free⟩
  · simp only [not_forall] at free
    obtain ⟨mutex, place, instr, taken⟩ := free
    obtain ⟨owner, owns⟩ := Option.ne_none_iff_exists'.mp taken
    have given {next : State} (gives : Gives owner state next) (other : .library handle ≠ owner)
        (unlocked : next.owner mutex = none) :
        ∃ next, Reachable step state next ∧ Owned next ∧ next.status (.library handle) = .running pc ∧
          ∀ mutex place, code (.library handle) pc = .lock mutex place -> next.owner mutex = none :=
      ⟨next, gives.reached, gives.owned, gives.others _ _ other here, fun mutex' place' same => by
        cases instr.symm.trans same
        exact unlocked⟩
    cases pc <;> simp only [PC.removed, Bool.false_eq_true] at removed <;>
      simp only [code, withRecord, goTo, branch, Instr.lock.injEq, reduceCtorEq] at instr
    case cleanupLockRunning =>
      obtain ⟨rfl, rfl⟩ := instr
      obtain ⟨next, gives, unlocked⟩ := owned.gives_running owns
      refine given gives (fun same => ?_) unlocked
      obtain ⟨pc, there, holds⟩ := (owned.valid.running.owner owner).mp owns
      cases here.symm.trans (same ▸ there)
      cases holds
    case cleanupLockEntry =>
      obtain ⟨rfl, rfl⟩ := instr
      have executed := ((owned.valid.at here).own handle rfl).executed PC.noConfusion
      obtain ⟨next, gives, unlocked⟩ := owned.gives_entry executed owns
      refine given gives (fun same => ?_) unlocked
      obtain ⟨closed, -⟩ | ⟨pc, there, holds⟩ := owned.owns handle owner owns
      · exact executed closed
      · cases here.symm.trans (same ▸ there)
        exact holds

theorem Owned.finishes_removed (owned : Owned state) (here : state.status (.library handle) = .running pc)
    (removed : pc.removed = true) : Finishes handle state := by
  obtain ⟨final, reached, -, ended⟩ := exists_reach_of_rank step
    (fun next => Owned next ∧ ∃ pc, next.status (.library handle) = .running pc ∧ pc.removed = true)
    (fun next => next.status (.library handle) = .running .finished) (fun next => next.rank (.library handle))
    (fun next ⟨owned, pc, here, removed⟩ unfinished => by
      obtain ⟨middle, waits, owned, still, free⟩ := owned.frees here removed
      have active : pc.rests = false := by
        cases pc <;> simp only [PC.removed, Bool.false_eq_true] at removed <;>
          first | rfl | exact absurd here unfinished
      have defined : middle.data.reachesFreed (.library handle) pc = false := by
        cases pc <;> simp only [PC.removed, Bool.false_eq_true] at removed <;> rfl
      obtain ⟨after, taken, kept, smaller, -⟩ := owned.goes still active free defined
      refine ⟨after, .tail waits trivial taken, ⟨kept, removed_kept still removed taken⟩, ?_⟩
      simpa [State.rank, still, here] using smaller)
    ⟨owned, pc, here, removed⟩
  exact ⟨final, reached, ended⟩

theorem Owned.finishes_remove (owned : Owned state)
    (here : state.status (.library handle) = .running .cleanupRemove)
    (defined : state.data.reachesFreed (.library handle) .cleanupRemove = false) : Finishes handle state := by
  obtain ⟨result, removed⟩ := removable defined
  have ran : program.outcome (.library handle) 0 .cleanupRemove state.data =
      some (result, .running .cleanupUnlockMap) := by
    simp [Program.outcome, program, code, withRecord, Instr.result, removed, note]
  obtain ⟨next, taken, there, -⟩ := goes_on here ran trivial
  have uncancelled : WaitsUncancelled state (.run (.library handle) 0) := trivial
  obtain ⟨final, reached, ended⟩ := (owned.preserved uncancelled taken).finishes_removed there rfl
  exact ⟨final, Reach.trans (.tail .refl trivial taken) reached, ended⟩

theorem Owned.finishes_lock (owned : Owned state)
    (here : state.status (.library handle) = .running .cleanupLockMap)
    (served : Served state handle .cleanupLockMap) : Finishes handle state := by
  obtain ⟨middle, waits, owned, still, free, intact⟩ := owned.gives_map here served
  obtain ⟨next, taken, there, -⟩ := goes_on still rfl free
  have same : next.data.dangling = middle.data.dangling := by
    obtain same | ⟨_, _, args, run, inserts, -⟩ | ⟨_, _, run, removes, -⟩ := threadMap_next taken
    · exact same.2
    · cases run
      cases still.symm.trans inserts
    · cases run
      cases still.symm.trans removes
  have uncancelled : WaitsUncancelled middle (.run (.library handle) 0) := trivial
  obtain ⟨final, reached, ended⟩ :=
    (owned.preserved uncancelled taken).finishes_remove there (not_freed (same.trans intact) _ _)
  exact ⟨final, Reach.trans (.tail waits trivial taken) reached, ended⟩

theorem Owned.released (owned : Owned state) : LocksReleased state := by
  refine ⟨fun own ended owner => ?_, fun own handle ended executed owner => ?_, fun handle pc here cleans served => ?_⟩
  · simpa [PC.holdsMap] using (owned.valid.map.owns ended).mp owner
  · obtain ⟨closed, -⟩ | ⟨pc, there, holds⟩ := owned.owns handle _ owner
    · exact executed closed
    · cases ended.symm.trans there
      exact holds
  · cases pc with
    | cleanupLockMap => exact owned.finishes_lock here served
    | cleanupRemove => exact owned.finishes_remove here served
    | _ => exact owned.finishes_removed here (by first | rfl | cases cleans)

end

/--
In a run in which no cancellation acts inside `zs__thread_wait`, a thread whose cleanup has completed owns
neither lock, and a cleanup can come to its end from every place of it, if the list serves it.
-/
theorem locks_released {state : State} (reached : Reach step WaitsUncancelled initial state) :
    LocksReleased state :=
  (reached.invariant Owned initial_owned fun _ _ _ owned uncancelled taken =>
    owned.preserved uncancelled taken).released

/-- `zs__execute` with thread 0, which makes thread 1. -/
def launchTwo : List Action :=
  launch ++ create (.library 0) { thread := 1, run := true, abort := false } ++ execute (.library 0) 1 ++
    runs (.library 1) 3

/-- Thread 0 waits for thread 1, which is cancelled in its run function. -/
def awaitedCancelled : List Action :=
  launchTwo ++ wait (.library 0) 1 ++ [.call (.outside 0) (.abortLockMap 1)] ++ runs (.outside 0) 4 ++
    [.interrupt (.library 1)] ++ runs (.library 1) 11

set_option maxRecDepth 1000 in
theorem locks_released_awaitedCancelled :
    ∃ final, exec step initial awaitedCancelled = some final ∧
      final.status (.library 1) = .running .finished ∧ LocksReleased final := by
  have reached : (exec step initial awaitedCancelled).map (fun final => final.status (.library 1)) =
      some (.running .finished) := by decide
  obtain ⟨final, run, ended⟩ := Option.map_eq_some_iff.mp reached
  have meets : Along step WaitsUncancelled initial awaitedCancelled := by decide
  exact ⟨final, run, ended, locks_released (reach_of_along run meets)⟩

/-- Thread 1 waits for thread 0, which aborts it; thread 0 never gets its own lock then. -/
def waiterCancelled : List Action :=
  launchTwo ++ wait (.library 1) 0 ++ [.call (.library 0) (.abortLockMap 1)] ++ runs (.library 0) 4 ++
    [.interrupt (.library 1)] ++ runs (.library 1) 11

theorem locks_released_fails_waiterCancelled :
    ∃ final, exec step initial waiterCancelled = some final ∧ ¬ LocksReleased final := by
  have reached : (exec step initial waiterCancelled).map (fun final =>
      (final.status (.library 1), final.owner (.waitingThreadsMutex 0), final.data.executed 0)) =
      some (.running .finished, some (.library 1), 1) := by decide
  obtain ⟨final, run, parts⟩ := Option.map_eq_some_iff.mp reached
  simp only [Prod.mk.injEq] at parts
  obtain ⟨ended, owner, executed⟩ := parts
  exact ⟨final, run, fun released => released.entry 1 0 ended (by simp [executed]) owner⟩

end ZSystem.Thread
