import ZSystem.Shared.Embed

set_option autoImplicit false

/-!
# Run functions and abort callbacks

`zs__thread_abort` calls the abort callback of a thread with the registry locked, and the run function
of that thread frees the data they share on its own, before `zs__thread_cleanup` locks the registry.
-/

namespace ZSystem.Abort

open Posix Transition

/-- A run function and an abort callback with the data they share. -/
structure Pair (T O L D : Type) where
  program : Program T O L D
  self : T
  value : O -> Nat
  data : D
  /-- Where the run function begins and where it has returned. -/
  begin : L
  finish : L
  /-- Where the abort callback begins and where it has returned. -/
  enter : L
  back : L
  freed : D -> Bool
  /-- The run function frees the data here. -/
  frees : L -> Bool
  /-- The next thing the abort callback does is an access to the data. -/
  accesses : L -> Bool
  /-- The abort callback may still have to access the data. -/
  ahead : L -> Bool
  enters : accesses enter = true
  touches : ∀ pc, accesses pc = true -> ahead pc = true
  returns : ahead back = false
  starts : ∀ thread pc child first next, program.code thread pc ≠ .start child first next
  calls : ∀ thread place before after, program.calls thread back place before = some after ->
    freed after = freed before
  stays : ∀ thread pick pc before after status, program.outcome thread pick pc before = some (after, status) ->
    freed before = true -> freed after = true
  frees_only : ∀ thread pick pc before after status,
    program.outcome thread pick pc before = some (after, status) -> freed after = true ->
    freed before = true ∨ frees pc = true
  frees_now : ∀ thread pick pc before after status,
    program.outcome thread pick pc before = some (after, status) -> frees pc = true -> freed after = true
  apart : ∀ pc, frees pc = true -> pc ≠ back ∧ pc ≠ finish ∧ ahead pc = false
  backward : ∀ thread pick pc before after status next,
    program.outcome thread pick pc before = some (after, status) -> status.place = some next ->
    ahead next = true -> ahead pc = true
  /-- Once the data are freed, nothing but an access ends what is ahead. -/
  forward : ∀ thread pick pc before after status next,
    program.outcome thread pick pc before = some (after, status) -> status.place = some next ->
    freed before = true -> ahead pc = true -> accesses pc = false -> ahead next = true

inductive Obj (O : Type) where
  | threadMapMutex
  | inner (object : O)
  deriving DecidableEq

inductive PC (L : Type) where
  | caller
  | abortLockMap
  | abortFind
  | callback (pc : L)
  | abortUnlockMap
  /-- In another function that is called on the data. -/
  | other (pc : L)
  | body (pc : L)
  | cleanupLockMap
  | cleanupRemove
  | cleanupUnlockMap
  | finished
  deriving DecidableEq

structure Data (D : Type) where
  inner : D
  /-- The registry has the entry of the thread; that is all of the registry that is left here. -/
  registered : Bool

variable {T O L D : Type} [DecidableEq T] [DecidableEq O] [DecidableEq L]

def goTo (pc : PC L) : Instr T (Obj O) (PC L) (Data D) := .act fun _ data => some (data, pc)

/-- The pair's own code, up to the place `last` where it returns to `out`. -/
def Pair.within (pair : Pair T O L D) (thread : T) (place : L -> PC L) (last : L) (out : PC L) (pc : L) :
    Instr T (Obj O) (PC L) (Data D) :=
  if pc = last then goTo out
  else (pair.program.code thread pc).embed .inner place Data.inner fun inner data =>
    { data with inner := inner }

def Pair.noteWithin (pair : Pair T O L D) (thread : T) (last pc : L) (data : Data D) : Data D :=
  if pc = last then data else { data with inner := pair.program.note thread pc data.inner }

/-- Lookups are taken to be exact: they find the thread until its cleanup removes the entry. -/
def Pair.code (pair : Pair T O L D) (thread : T) : PC L -> Instr T (Obj O) (PC L) (Data D)
  | .caller => .halt
  -- zs__thread_abort
  | .abortLockMap => .lock .threadMapMutex .abortFind
  | .abortFind => .act fun _ data => some
      (data, if data.registered then .callback pair.enter else .abortUnlockMap)
  | .callback pc => pair.within thread .callback pair.back .abortUnlockMap pc
  | .abortUnlockMap => .unlock .threadMapMutex .caller
  | .other pc => pair.within thread .other pair.back .caller pc
  -- zs__thread_start
  | .body pc => pair.within thread .body pair.finish .cleanupLockMap pc
  -- zs__thread_cleanup, as far as it is about the registry
  | .cleanupLockMap => .lock .threadMapMutex .cleanupRemove
  | .cleanupRemove => .act fun _ data => some ({ data with registered := false }, .cleanupUnlockMap)
  | .cleanupUnlockMap => .unlock .threadMapMutex .finished
  | .finished => .halt

/-- Whoever is outside the library may call `zs__thread_abort`, or another function on the data. -/
def Pair.enterCalls (pair : Pair T O L D) (thread : T) : PC L -> PC L -> Data D -> Option (Data D)
  | .caller, .abortLockMap, data => some data
  | .caller, .other place, data =>
      if place = pair.enter then none
      else (pair.program.calls thread pair.back place data.inner).map fun inner =>
        { data with inner := inner }
  | _, _, _ => none

def Pair.note (pair : Pair T O L D) (thread : T) : PC L -> Data D -> Data D
  | .callback pc, data | .other pc, data => pair.noteWithin thread pair.back pc data
  | .body pc, data => pair.noteWithin thread pair.finish pc data
  | _, data => data

def Pair.whole (pair : Pair T O L D) : Program T (Obj O) (PC L) (Data D) where
  code := pair.code
  calls := pair.enterCalls
  note := pair.note
  limit := pair.program.limit

abbrev State (T O L D : Type) := Posix.State T (Obj O) (PC L) (Data D)

def Pair.initial (pair : Pair T O L D) : State T O L D where
  owner _ := none
  sleepers _ := []
  value
    | .threadMapMutex => 0
    | .inner object => pair.value object
  cancelled _ := false
  status thread := .running (if thread = pair.self then .body pair.begin else .caller)
  data := { inner := pair.data, registered := true }

abbrev Pair.step (pair : Pair T O L D) : State T O L D -> Act T (PC L) -> Option (State T O L D) :=
  pair.whole.step

def PC.own : PC L -> Option L
  | .callback pc | .other pc | .body pc => some pc
  | _ => none

def InCallback (state : State T O L D) (thread : T) (pc : L) : Prop :=
  (state.status thread).place = some (.callback pc)

def Pair.NoCaller (pair : Pair T O L D) (state : State T O L D) : Prop :=
  ∀ thread pc, InCallback state thread pc -> pair.ahead pc = false

/-- Once the data are freed, nobody is about to access them in the abort callback. -/
def Pair.Safe (pair : Pair T O L D) (state : State T O L D) : Prop :=
  pair.freed state.data.inner = true -> ∀ thread pc, InCallback state thread pc -> pair.accesses pc = false

/-- The data are freed, and a caller in the abort callback still has to access them. -/
def Pair.Doomed (pair : Pair T O L D) (state : State T O L D) : Prop :=
  pair.freed state.data.inner = true ∧ ∃ thread pc, InCallback state thread pc ∧ pair.ahead pc = true

/--
The data are freed only while no caller in the abort callback has an access ahead, and
`zs__thread_abort` finds the thread only while they are not freed.
-/
def Pair.FreesAlone (pair : Pair T O L D) (state : State T O L D) : Act T (PC L) -> Prop
  | .run thread _ => ∀ pc, state.status thread = .running pc ->
      (∀ own, pc.own = some own -> pair.frees own = true -> pair.NoCaller state) ∧
      (pc = .abortFind -> state.data.registered = true -> pair.freed state.data.inner = false)
  | _ => True

/-! ## What one step does -/

section Steps

variable {pair : Pair T O L D} {state next : State T O L D} {action : Act T (PC L)} {thread : T}
  {pick : Nat} {data after : Data D} {status : Status (Obj O) (PC L)}

omit [DecidableEq T] [DecidableEq O] in
theorem Pair.outcome_within {place : L -> PC L} {last pc : L} {out : PC L}
    (code : pair.code thread (place pc) = pair.within thread place last out pc)
    (note : pair.note thread (place pc) = pair.noteWithin thread last pc)
    (ran : pair.whole.outcome thread pick (place pc) data = some (after, status)) :
    (pc = last ∧ after = data ∧ status = .running out) ∨
      ∃ inner moved, pair.program.outcome thread pick pc data.inner = some (inner, moved) ∧
        after = { data with inner := inner } ∧ status = moved.embed .inner place := by
  have same : pair.whole.code thread (place pc) = pair.within thread place last out pc := code
  have marks : pair.whole.note thread (place pc) = pair.noteWithin thread last pc := note
  simp only [Program.outcome, same, marks, Pair.within, Pair.noteWithin] at ran
  split_ifs at ran with returned
  · simp only [goTo, Instr.result, Option.map_some, Option.some.injEq, Prod.mk.injEq] at ran
    exact Or.inl ⟨returned, ran.1.symm, ran.2.symm⟩
  · rw [result_embed rfl, Option.map_map] at ran
    obtain ⟨⟨inner, moved⟩, result, arrives⟩ := Option.map_eq_some_iff.mp ran
    simp only [Function.comp_apply, Prod.mk.injEq] at arrives
    refine Or.inr ⟨_, moved, ?_, arrives.1.symm, arrives.2.symm⟩
    simp [Program.outcome, result]

omit [DecidableEq T] [DecidableEq O] in
theorem Pair.outcome_own {pc : PC L} {own : L} (mine : pc.own = some own)
    (ran : pair.whole.outcome thread pick pc data = some (after, status)) :
    (after = data ∧ ∃ out, status = .running out ∧ out.own = none) ∨
      ∃ (place : L -> PC L) (inner : D) (moved : Status O L), pc = place own ∧
        (place = .callback ∨ place = .other ∨ place = .body) ∧
        pair.program.outcome thread pick own data.inner = some (inner, moved) ∧
        after = { data with inner := inner } ∧ status = moved.embed .inner place := by
  cases pc <;> simp only [PC.own, Option.some.injEq, reduceCtorEq] at mine <;> subst mine
  case callback =>
    rcases Pair.outcome_within rfl rfl ran with ⟨-, same, out⟩ | ⟨inner, moved, step⟩
    · exact Or.inl ⟨same, _, out, rfl⟩
    · exact Or.inr ⟨.callback, inner, moved, rfl, Or.inl rfl, step⟩
  case other =>
    rcases Pair.outcome_within rfl rfl ran with ⟨-, same, out⟩ | ⟨inner, moved, step⟩
    · exact Or.inl ⟨same, _, out, rfl⟩
    · exact Or.inr ⟨.other, inner, moved, rfl, Or.inr (Or.inl rfl), step⟩
  case body =>
    rcases Pair.outcome_within rfl rfl ran with ⟨-, same, out⟩ | ⟨inner, moved, step⟩
    · exact Or.inl ⟨same, _, out, rfl⟩
    · exact Or.inr ⟨.body, inner, moved, rfl, Or.inr (Or.inr rfl), step⟩

omit [DecidableEq T] [DecidableEq O] in
theorem Pair.outcome_outer {pc : PC L} (outside : pc.own = none)
    (ran : pair.whole.outcome thread pick pc data = some (after, status)) :
    after.inner = data.inner ∧ ∀ place, status.place = some place ->
      place.own = none ∨ pc = .abortFind ∧ data.registered = true ∧ place = .callback pair.enter := by
  cases pc <;> simp only [PC.own, reduceCtorEq] at outside
  case abortFind =>
    simp only [Program.outcome, Pair.whole, Pair.code, Pair.note, Instr.result, Option.map_some,
      Option.some.injEq, Prod.mk.injEq] at ran
    obtain ⟨rfl, rfl⟩ := ran
    refine ⟨rfl, fun place there => ?_⟩
    simp only [Status.place, Option.some.injEq] at there
    subst there
    split_ifs with registered
    · exact Or.inr ⟨rfl, registered, rfl⟩
    · exact Or.inl rfl
  case caller | finished => simp [Program.outcome, Pair.whole, Pair.code, Instr.result] at ran
  all_goals
    simp only [Program.outcome, Pair.whole, Pair.code, Pair.note, Instr.result, Option.map_some,
      Option.some.injEq, Prod.mk.injEq] at ran
    obtain ⟨rfl, rfl⟩ := ran
    refine ⟨rfl, fun place there => Or.inl ?_⟩
    cases there
    rfl

theorem Pair.data_cases (taken : pair.step state action = some next) :
    pair.freed next.data.inner = pair.freed state.data.inner ∨
      ∃ thread pick pc own moved, action = .run thread pick ∧ state.status thread = .running pc ∧
        pc.own = some own ∧
        pair.program.outcome thread pick own state.data.inner = some (next.data.inner, moved) := by
  cases step_cases taken with
  | @instr thread pick pc after here performed =>
      obtain ⟨-, ran, -, -⟩ := outcome_parts performed
      cases mine : pc.own with
      | none => exact Or.inl (congrArg pair.freed (Pair.outcome_outer mine ran).1)
      | some own =>
          rcases Pair.outcome_own mine ran with ⟨same, -⟩ | ⟨place, inner, moved, -, -, stepped, same, -⟩
          · exact Or.inl (congrArg (fun data => pair.freed data.inner) same)
          · exact Or.inr ⟨thread, pick, pc, own, moved, rfl, here, mine, by
              rw [stepped]
              exact congrArg (fun data => some (Data.inner data, moved)) same.symm⟩
  | @call thread pc place data here chosen =>
      left
      simp only [Pair.whole, Pair.enterCalls] at chosen
      split at chosen
      · cases chosen
        rfl
      · split_ifs at chosen
        obtain ⟨inner, called, rfl⟩ := Option.map_eq_some_iff.mp chosen
        exact pair.calls _ _ _ _ called
      · cases chosen
  | resume | wake | stop | abandon => exact Or.inl rfl

omit [DecidableEq T] [DecidableEq O] in
theorem Pair.no_start {pc first place : PC L} {child : T} :
    pair.whole.code thread pc ≠ .start child first place := by
  intro starts
  have within {wrap : L -> PC L} {last own : L} {out : PC L} :
      pair.within thread wrap last out own ≠ .start child first place := by
    unfold Pair.within
    split_ifs
    · simp [goTo]
    · intro embedded
      obtain ⟨_, _, inner⟩ := embed_eq_start embedded
      exact pair.starts _ _ _ _ _ inner
  cases pc <;> first | exact within starts | cases starts

theorem Pair.callback_from (taken : pair.step state action = some next) {pc : L}
    (there : InCallback next thread pc) :
    InCallback state thread pc ∨
      (∃ pick origin moved, InCallback state thread origin ∧
        pair.program.outcome thread pick origin state.data.inner = some (next.data.inner, moved) ∧
        moved.place = some pc) ∨
      ∃ pick, action = .run thread pick ∧ state.status thread = .running .abortFind ∧
        state.data.registered = true ∧ pc = pair.enter ∧ next.data.inner = state.data.inner := by
  unfold InCallback at there
  cases arrival taken thread with
  | stays same => exact Or.inl (by rwa [InCallback, ← same])
  | @instr pick origin run here enabled ran =>
      right
      cases mine : origin.own with
      | none =>
          obtain ⟨same, arrives⟩ := Pair.outcome_outer mine ran
          rcases arrives _ there with outside | ⟨rfl, registered, entered⟩
          · cases outside
          · exact Or.inr ⟨pick, run, here, registered, PC.callback.inj entered, same⟩
      | some own =>
          rcases Pair.outcome_own mine ran with ⟨-, out, left, outside⟩ |
            ⟨place, inner, moved, rfl, which, stepped, same, arrives⟩
          · rw [left] at there
            cases there
            cases outside
          · rw [arrives, place_embed] at there
            obtain ⟨target, at', wrapped⟩ := Option.map_eq_some_iff.mp there
            obtain rfl | rfl | rfl := which <;> cases wrapped
            refine Or.inl ⟨pick, own, moved, by simp [InCallback, here, Status.place], ?_, at'⟩
            rw [stepped, same]
  | born _ _ _ instr => exact absurd instr Pair.no_start
  | resume _ here _ _ arrives =>
      left
      rw [arrives] at there
      simp only [InCallback, here]
      exact there
  | @call origin place data _ here chosen arrives =>
      rw [arrives] at there
      cases there
      cases origin <;> simp [Pair.whole, Pair.enterCalls] at chosen
  | stop _ _ handled | abandon _ _ handled => simp [Pair.whole] at handled

theorem Pair.callback_on (taken : pair.step state action = some next) {pc : L}
    (here : InCallback state thread pc) (inside : pc ≠ pair.back) :
    InCallback next thread pc ∨ ∃ pick moved after,
      pair.program.outcome thread pick pc state.data.inner = some (next.data.inner, moved) ∧
        moved.place = some after ∧ InCallback next thread after := by
  unfold InCallback at here
  cases arrival taken thread with
  | stays same => exact Or.inl (by rwa [InCallback, same])
  | @instr pick origin run there enabled ran =>
      simp only [there, Status.place, Option.some.injEq] at here
      subst here
      rcases Pair.outcome_within rfl rfl ran with ⟨returned, -⟩ | ⟨inner, moved, stepped, same, arrives⟩
      · exact absurd returned inside
      · obtain ⟨after, at'⟩ : ∃ after, moved.place = some after := by
          rcases outcome_status stepped with ⟨after, rfl⟩ | ⟨_, _, after, rfl, -⟩ <;> exact ⟨after, rfl⟩
        refine Or.inr ⟨pick, moved, after, ?_, at', ?_⟩
        · rw [stepped, same]
        · rw [InCallback, arrives, place_embed, at', Option.map_some]
  | born _ _ _ instr => exact absurd instr Pair.no_start
  | resume _ there _ _ arrives =>
      left
      rw [there] at here
      simp only [InCallback, arrives]
      exact here
  | @call origin place data _ there chosen arrives =>
      simp only [there, Status.place, Option.some.injEq] at here
      subst here
      simp [Pair.whole, Pair.enterCalls] at chosen
  | stop _ _ handled | abandon _ _ handled => simp [Pair.whole] at handled

omit [DecidableEq T] [DecidableEq O] in
theorem Pair.freed_by {pc : PC L} {own : L} (mine : pc.own = some own) (notBack : own ≠ pair.back)
    (notFinish : own ≠ pair.finish) (frees : pair.frees own = true)
    (ran : pair.whole.outcome thread pick pc data = some (after, status)) :
    pair.freed after.inner = true := by
  have within {place : L -> PC L} {last : L} {out : PC L} (different : own ≠ last)
      (code : pair.code thread (place own) = pair.within thread place last out own)
      (note : pair.note thread (place own) = pair.noteWithin thread last own)
      (ran : pair.whole.outcome thread pick (place own) data = some (after, status)) :
      pair.freed after.inner = true := by
    rcases Pair.outcome_within code note ran with ⟨returned, -⟩ | ⟨inner, moved, stepped, rfl, -⟩
    · exact absurd returned different
    · exact pair.frees_now _ _ _ _ _ _ stepped frees
  cases pc <;> simp only [PC.own, Option.some.injEq, reduceCtorEq] at mine <;> subst mine
  case callback | other => exact within notBack rfl rfl ran
  case body => exact within notFinish rfl rfl ran

/-! ## The law -/

def Pair.Clear (pair : Pair T O L D) (state : State T O L D) : Prop :=
  pair.freed state.data.inner = true -> pair.NoCaller state

theorem Pair.Clear.preserved (clear : pair.Clear state) (alone : pair.FreesAlone state action)
    (taken : pair.step state action = some next) : pair.Clear next := by
  intro freed thread pc there
  -- Before the step nobody had an access ahead, whether the data were freed or are being freed.
  have before : pair.freed state.data.inner = true ∨ pair.NoCaller state := by
    rcases Pair.data_cases taken with same | ⟨actor, pick, at', own, moved, rfl, here, mine, ran⟩
    · exact Or.inl (same ▸ freed)
    · exact (pair.frees_only _ _ _ _ _ _ ran freed).imp_right ((alone at' here).1 own mine)
  have none : pair.NoCaller state := before.elim clear id
  rcases Pair.callback_from taken there with same | ⟨pick, origin, moved, here, ran, place⟩ |
    ⟨pick, rfl, here, registered, -, same⟩
  · exact none thread pc same
  · by_contra ahead
    have also := pair.backward _ _ _ _ _ _ _ ran place (by simpa using ahead)
    simp [none thread origin here] at also
  · have present := (alone _ here).2 rfl registered
    rw [same, present] at freed
    cases freed

omit [DecidableEq T] [DecidableEq O] [DecidableEq L] in
theorem Pair.Clear.safe (clear : pair.Clear state) : pair.Safe state := by
  intro freed thread pc here
  by_contra accesses
  have ahead := pair.touches pc (by simpa using accesses)
  simp [clear freed thread pc here] at ahead

theorem Pair.freed_stays (taken : pair.step state action = some next)
    (freed : pair.freed state.data.inner = true) : pair.freed next.data.inner = true := by
  rcases Pair.data_cases taken with same | ⟨_, _, _, _, _, -, -, -, ran⟩
  · rw [same, freed]
  · exact pair.stays _ _ _ _ _ _ ran freed

theorem Pair.dooms (early : ¬ pair.FreesAlone state action)
    (taken : pair.step state action = some next) : pair.Doomed next ∨ ¬ pair.Safe next := by
  cases action with
  | run actor pick =>
      simp only [Pair.FreesAlone, not_forall] at early
      obtain ⟨pc, here, early⟩ := early
      obtain ⟨-, ran, -, -⟩ := run_parts here taken
      rw [not_and_or] at early
      rcases early with under | late
      · left
        simp only [Pair.NoCaller, not_forall, Bool.not_eq_false] at under
        obtain ⟨own, mine, frees, thread, place, inside, ahead⟩ := under
        obtain ⟨notBack, notFinish, quiet⟩ := pair.apart own frees
        have freed := Pair.freed_by mine notBack notFinish frees ran
        have other : thread ≠ actor := by
          rintro rfl
          simp only [InCallback, here, Status.place, Option.some.injEq] at inside
          subst inside
          cases mine
          simp [ahead] at quiet
        rcases status_other taken other with stays | ⟨_, _, _, _, -, -, starts, -⟩
        · exact ⟨freed, thread, place, by rwa [InCallback, stays], ahead⟩
        · exact absurd starts Pair.no_start
      · right
        simp only [not_forall, Bool.not_eq_false] at late
        obtain ⟨rfl, registered, freed⟩ := late
        simp only [Program.outcome, Pair.whole, Pair.code, Pair.note, Instr.result, registered, if_true,
          Option.map_some, Option.some.injEq, Prod.mk.injEq] at ran
        intro safe
        have entered : InCallback next actor pair.enter := by
          rw [InCallback, ← ran.2]
          rfl
        have fine := safe (ran.1 ▸ freed) actor pair.enter entered
        simp [pair.enters] at fine
  | _ => exact absurd trivial early

theorem Pair.Doomed.stays (doomed : pair.Doomed state) (safe : pair.Safe state)
    (taken : pair.step state action = some next) : pair.Doomed next := by
  obtain ⟨freed, thread, pc, here, ahead⟩ := doomed
  have inside : pc ≠ pair.back := by
    rintro rfl
    simp [pair.returns] at ahead
  refine ⟨Pair.freed_stays taken freed, thread, ?_⟩
  rcases Pair.callback_on taken here inside with same | ⟨pick, moved, after, ran, place, there⟩
  · exact ⟨pc, same, ahead⟩
  · exact ⟨after, there, pair.forward _ _ _ _ _ _ _ ran place freed ahead (safe freed thread pc here)⟩

omit [DecidableEq O] [DecidableEq L] in
theorem Pair.initial_clear : pair.Clear pair.initial := by
  intro _ thread pc here
  simp only [InCallback, Pair.initial, Status.place, Option.some.injEq] at here
  split_ifs at here

/--
In a run whose steps all meet the condition, freed data are never accessed; and a run in which they are
never accessed meets it, unless it ends with a caller that still has to access freed data.
-/
def Pair.Exact (pair : Pair T O L D) : Prop :=
  ∀ actions final, exec pair.step pair.initial actions = some final ->
    (Along pair.step pair.FreesAlone pair.initial actions ->
      Throughout pair.step pair.Safe pair.initial actions) ∧
    (Throughout pair.step pair.Safe pair.initial actions ->
      Along pair.step pair.FreesAlone pair.initial actions ∨ pair.Doomed final)

theorem Pair.exact (pair : Pair T O L D) : pair.Exact := fun _ _ run =>
  ⟨throughout_of_along pair.Clear (fun _ clear => clear.safe)
    (fun _ _ _ clear alone taken => clear.preserved alone taken) Pair.initial_clear,
  along_or_doomed pair.Clear pair.Doomed (fun _ _ _ clear alone taken => clear.preserved alone taken)
    (fun _ _ _ _ early taken => Pair.dooms early taken)
    (fun _ _ _ doomed safe taken => Or.inl (doomed.stays safe taken)) Pair.initial_clear run⟩

theorem Pair.unsafe_of_exec {actions : List (Act T (PC L))} {pc : L}
    (reached : (exec pair.step pair.initial actions).map (fun final =>
      (pair.freed final.data.inner, final.status thread)) = some (true, .running (.callback pc)))
    (accesses : pair.accesses pc = true) :
    ∃ final, exec pair.step pair.initial actions = some final ∧ pair.freed final.data.inner = true ∧
      final.status thread = .running (.callback pc) ∧ ¬ pair.Safe final := by
  obtain ⟨final, run, parts⟩ := Option.map_eq_some_iff.mp reached
  simp only [Prod.mk.injEq] at parts
  obtain ⟨freed, here⟩ := parts
  refine ⟨final, run, freed, here, fun safe => ?_⟩
  have fine := safe freed thread pc (by rw [InCallback, here]; rfl)
  simp [accesses] at fine

end Steps

end ZSystem.Abort
