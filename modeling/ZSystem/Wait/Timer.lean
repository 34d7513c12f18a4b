import ZSystem.Wait.Retry

set_option autoImplicit false

/-!
# The earliest timer

A wait set keeps one timer only: `zs__wait_add_timer` compares a new one with it, seconds first.
-/

namespace ZSystem.Timer

open Transition

/-- In microseconds. -/
def total (sec microsec : Int64) : Int := sec.toInt * 1000000 + microsec.toInt

/-- The arguments of `zs__wait_add_timer`; `microsec` may be more than a second. -/
structure Duration where
  sec : Int64
  microsec : Int64
  nonnegative : 0 ≤ sec ∧ 0 ≤ microsec
  deriving DecidableEq

def Duration.total (duration : Duration) : Int := Timer.total duration.sec duration.microsec

structure Added where
  number : UInt32
  duration : Duration
  deriving DecidableEq

def Added.total (timer : Added) : Int := timer.duration.total

/-- A wait set, and all its timers in the order of the calls. -/
structure State where
  wait : Wait
  timers : List Added
  deriving DecidableEq

inductive Addition where
  | timer (duration : Duration)
  | reader (fd : Int)
  deriving DecidableEq

def step (state : State) : Addition -> Option State
  | .timer duration =>
      let (number, wait) := waitAddTimer state.wait duration.sec duration.microsec
      some { wait := wait, timers := state.timers ++ [{ number := number, duration := duration }] }
  | .reader fd => some { state with wait := (waitAddStreamReaderFd state.wait fd).2 }

def fresh (sec microsec : Int64) : State := { wait := waitCreate sec microsec, timers := [] }

/-- The first of the timers that are not longer than any other. -/
def shortest (timers : List Added) : Option Added :=
  timers.find? fun timer => timers.all fun other => timer.total ≤ other.total

/-- The timeout of `select` is that of the shortest timer. -/
def Earliest (state : State) : Prop :=
  match state.wait.timeout with
  | none => state.timers = []
  | some (sec, microsec) => ∃ first ∈ shortest state.timers,
      first.number = state.wait.timerNumber ∧ first.total = total sec microsec

instance (state : State) : Decidable (Earliest state) := by
  unfold Earliest
  split <;> infer_instance

/-- How the code compares a new timer with the one it has kept. -/
def Before (wait : Wait) (sec microsec : Int64) : Prop :=
  sec < wait.sec ∨ (sec = wait.sec ∧ microsec < wait.microsec)

instance (wait : Wait) (sec microsec : Int64) : Decidable (Before wait sec microsec) :=
  inferInstanceAs (Decidable (_ ∨ _))

/-- The comparison is that of the durations, and a timer that is kept does not get the number 0. -/
def Agrees (state : State) : Addition -> Prop
  | .timer duration =>
      (state.wait.timerNumber ≠ 0 ->
        (Before state.wait duration.sec duration.microsec ↔
          duration.total < total state.wait.sec state.wait.microsec)) ∧
      (state.wait.timerNumber = 0 ∨ Before state.wait duration.sec duration.microsec ->
        state.wait.maxNumber + 1 ≠ 0)
  | .reader _ => True

instance (state : State) (addition : Addition) : Decidable (Agrees state addition) := by
  cases addition <;> unfold Agrees <;> infer_instance

/-! ## One addition -/

section Add

variable {wait : Wait} {sec microsec : Int64}

theorem addTimer_kept (keeps : wait.timerNumber = 0 ∨ Before wait sec microsec) :
    waitAddTimer wait sec microsec = (wait.maxNumber + 1,
      { wait with
        maxNumber := wait.maxNumber + 1, timerNumber := wait.maxNumber + 1, sec := sec, microsec := microsec }) := by
  refine if_pos (keeps.elim Or.inl fun before => ?_)
  by_cases none : wait.timerNumber = 0
  · exact Or.inl none
  · exact Or.inr ⟨UInt32.pos_iff_ne_zero.mpr none, before⟩

theorem addTimer_dropped (drops : ¬ (wait.timerNumber = 0 ∨ Before wait sec microsec)) :
    waitAddTimer wait sec microsec = (wait.maxNumber + 1, { wait with maxNumber := wait.maxNumber + 1 }) :=
  if_neg fun keeps => drops (keeps.imp_right And.right)

/-- What an addition leaves of the wait set, whether or not the timer is kept. -/
theorem addTimer_frame (wait : Wait) (sec microsec : Int64) :
    (waitAddTimer wait sec microsec).2.elements = wait.elements ∧
      (waitAddTimer wait sec microsec).2.maxNumber = wait.maxNumber + 1 ∧
      ((waitAddTimer wait sec microsec).2.timerNumber = wait.maxNumber + 1 ∨
        (waitAddTimer wait sec microsec).2.timerNumber = wait.timerNumber) := by
  by_cases keeps : wait.timerNumber = 0 ∨ Before wait sec microsec
  · rw [addTimer_kept keeps]
    exact ⟨rfl, rfl, Or.inl rfl⟩
  · rw [addTimer_dropped keeps]
    exact ⟨rfl, rfl, Or.inr rfl⟩

theorem timeout_of_ne (number : wait.timerNumber ≠ 0) : wait.timeout = some (wait.sec, wait.microsec) :=
  if_pos (UInt32.pos_iff_ne_zero.mpr number)

theorem timeout_of_eq (number : wait.timerNumber = 0) : wait.timeout = none := by
  simp [Wait.timeout, number]

end Add

variable {state next : State} {duration : Duration} {addition : Addition}

theorem step_kept (keeps : state.wait.timerNumber = 0 ∨ Before state.wait duration.sec duration.microsec) :
    step state (.timer duration) = some
      { wait := { state.wait with
          maxNumber := state.wait.maxNumber + 1
          timerNumber := state.wait.maxNumber + 1
          sec := duration.sec
          microsec := duration.microsec }
        timers := state.timers ++ [{ number := state.wait.maxNumber + 1, duration := duration }] } := by
  simp only [step, addTimer_kept keeps]

theorem step_dropped (drops : ¬ (state.wait.timerNumber = 0 ∨ Before state.wait duration.sec duration.microsec)) :
    step state (.timer duration) = some
      { wait := { state.wait with maxNumber := state.wait.maxNumber + 1 }
        timers := state.timers ++ [{ number := state.wait.maxNumber + 1, duration := duration }] } := by
  simp only [step, addTimer_dropped drops]

theorem timers_of_zero (earliest : Earliest state) (zero : state.wait.timerNumber = 0) : state.timers = [] := by
  rwa [Earliest, timeout_of_eq zero] at earliest

theorem first_of_ne (earliest : Earliest state) (number : state.wait.timerNumber ≠ 0) :
    ∃ first, shortest state.timers = some first ∧ first.number = state.wait.timerNumber ∧
      first.total = total state.wait.sec state.wait.microsec := by
  rwa [Earliest, timeout_of_ne number] at earliest

theorem earliest_of_first (first : Added) (found : shortest state.timers = some first)
    (number : state.wait.timerNumber ≠ 0) (same : first.number = state.wait.timerNumber)
    (least : first.total = total state.wait.sec state.wait.microsec) : Earliest state := by
  rw [Earliest, timeout_of_ne number]
  exact ⟨first, found, same, least⟩

theorem shortest_snoc {timers : List Added} {first timer : Added} (found : shortest timers = some first) :
    shortest (timers ++ [timer]) = if timer.total < first.total then some timer else some first := by
  obtain ⟨least, front, back, split, earlier⟩ := List.find?_eq_some_iff_append.mp found
  simp only [List.all_eq_true, decide_eq_true_eq] at least
  unfold shortest
  split_ifs with shorter
  · refine List.find?_eq_some_iff_append.mpr ⟨?_, timers, [], rfl, fun other member => ?_⟩
    · simp only [List.all_eq_true, decide_eq_true_eq, List.forall_mem_append, List.mem_singleton, forall_eq]
      exact ⟨fun other member => by have := least other member; omega, le_refl _⟩
    · have above := least other member
      simp only [List.all_append, List.all_cons, List.all_nil, Bool.and_true, Bool.not_and, Bool.or_eq_true,
        Bool.not_eq_true', decide_eq_false_iff_not]
      exact Or.inr (by omega)
  · refine List.find?_eq_some_iff_append.mpr ⟨?_, front, back ++ [timer], by simp [split], fun other member => ?_⟩
    · simp only [List.all_eq_true, decide_eq_true_eq, List.forall_mem_append, List.mem_singleton, forall_eq]
      exact ⟨least, by omega⟩
    · have longer := earlier other member
      simp only [List.all_append, Bool.not_and, Bool.or_eq_true]
      exact Or.inl longer

theorem earliest_step (earliest : Earliest state) (agrees : Agrees state addition)
    (taken : step state addition = some next) : Earliest next := by
  cases addition with
  | reader fd =>
      cases taken
      exact earliest
  | timer duration =>
      obtain ⟨compares, numbered⟩ := agrees
      by_cases keeps : state.wait.timerNumber = 0 ∨ Before state.wait duration.sec duration.microsec
      · obtain rfl := Option.some.inj ((step_kept keeps).symm.trans taken)
        refine earliest_of_first { number := state.wait.maxNumber + 1, duration := duration } ?_
          (numbered keeps) rfl rfl
        by_cases zero : state.wait.timerNumber = 0
        · simp [timers_of_zero earliest zero, shortest]
        · obtain ⟨first, found, -, least⟩ := first_of_ne earliest zero
          rw [shortest_snoc found, if_pos]
          rw [least]
          exact (compares zero).mp (keeps.resolve_left zero)
      · obtain rfl := Option.some.inj ((step_dropped keeps).symm.trans taken)
        obtain ⟨number, later⟩ := not_or.mp keeps
        obtain ⟨first, found, same, least⟩ := first_of_ne earliest number
        refine earliest_of_first first ?_ number same least
        rw [shortest_snoc found, if_neg]
        rw [least]
        exact fun shorter => later ((compares number).mpr shorter)

/-- A comparison that goes wrong shows at once, as long as the numbers of the timers differ. -/
theorem agrees_of_earliest (earliest : Earliest state) (later : Earliest next)
    (taken : step state addition = some next) (numbered : state.wait.maxNumber + 1 ≠ 0)
    (apart : state.wait.timerNumber ≠ state.wait.maxNumber + 1) : Agrees state addition := by
  cases addition with
  | reader fd => trivial
  | timer duration =>
      refine ⟨fun number => ?_, fun _ => numbered⟩
      obtain ⟨first, found, same, least⟩ := first_of_ne earliest number
      by_cases before : Before state.wait duration.sec duration.microsec
      · refine iff_of_true before (by_contra fun longer => ?_)
        obtain rfl := Option.some.inj ((step_kept (Or.inr before)).symm.trans taken)
        obtain ⟨first', found', same', -⟩ := first_of_ne later numbered
        rw [shortest_snoc found, if_neg (least ▸ longer)] at found'
        obtain rfl := Option.some.inj found'
        exact apart (same.symm.trans same')
      · refine iff_of_false before fun shorter => ?_
        obtain rfl := Option.some.inj ((step_dropped (not_or.mpr ⟨number, before⟩)).symm.trans taken)
        obtain ⟨first', found', same', -⟩ := first_of_ne later number
        rw [shortest_snoc found, if_pos (least ▸ shorter)] at found'
        obtain rfl := Option.some.inj found'
        exact apart same'.symm

/-! ## Any number of additions -/

theorem earliest_fresh (sec microsec : Int64) : Earliest (fresh sec microsec) := rfl

/-- The counter does not wrap in `count` more additions. -/
def Room (wait : Wait) (count : Nat) : Prop :=
  wait.timerNumber.toNat ≤ wait.maxNumber.toNat ∧ wait.maxNumber.toNat + count < 2 ^ 32

section Room

variable {wait : Wait} {count : Nat}

theorem Room.succ (room : Room wait (count + 1)) : (wait.maxNumber + 1).toNat = wait.maxNumber.toNat + 1 := by
  have bounded := room.2
  rw [UInt32.toNat_add, UInt32.toNat_one, Nat.mod_eq_of_lt (by omega)]

theorem Room.apart (room : Room wait (count + 1)) {number : UInt32} (old : number.toNat ≤ wait.maxNumber.toNat) :
    wait.maxNumber + 1 ≠ number := fun same => by
  have succ := room.succ
  rw [same] at succ
  omega

theorem Room.ne_zero (room : Room wait (count + 1)) : wait.maxNumber + 1 ≠ 0 := room.apart (Nat.zero_le _)

theorem Room.addTimer (room : Room wait (count + 1)) (sec microsec : Int64) :
    Room (waitAddTimer wait sec microsec).2 count := by
  have succ := room.succ
  obtain ⟨below, bounded⟩ := room
  obtain ⟨-, counter, new | old⟩ := addTimer_frame wait sec microsec
  · exact ⟨by rw [new, counter], by rw [counter, succ]; omega⟩
  · exact ⟨by rw [old, counter, succ]; omega, by rw [counter, succ]; omega⟩

theorem Room.addStreamReaderFd (room : Room wait (count + 1)) (fd : Int) :
    Room (waitAddStreamReaderFd wait fd).2 count := by
  have succ := room.succ
  obtain ⟨below, bounded⟩ := room
  exact ⟨by simp only [waitAddStreamReaderFd, succ]; omega, by simp only [waitAddStreamReaderFd, succ]; omega⟩

end Room

theorem room_step {count : Nat} (room : Room state.wait (count + 1)) (taken : step state addition = some next) :
    Room next.wait count := by
  cases addition with
  | reader fd =>
      cases taken
      exact room.addStreamReaderFd fd
  | timer duration =>
      obtain rfl := Option.some.inj taken
      exact room.addTimer duration.sec duration.microsec

theorem agrees_along {additions : List Addition} (room : Room state.wait additions.length)
    (throughout : Throughout step Earliest state additions) : Along step Agrees state additions := by
  induction additions generalizing state with
  | nil => trivial
  | cons addition rest ih =>
      obtain ⟨earliest, later⟩ := throughout
      refine ⟨?_, fun next taken => ih (room_step room taken) (later next taken)⟩
      obtain ⟨next, taken⟩ : ∃ next, step state addition = some next := by cases addition <;> exact ⟨_, rfl⟩
      exact agrees_of_earliest earliest (throughout_head (later next taken)) taken room.ne_zero
        (room.apart room.1).symm

theorem earliest_throughout (sec microsec : Int64) (additions : List Addition) :
    (Along step Agrees (fresh sec microsec) additions -> Throughout step Earliest (fresh sec microsec) additions) ∧
      (additions.length < 2 ^ 32 -> Throughout step Earliest (fresh sec microsec) additions ->
        Along step Agrees (fresh sec microsec) additions) := by
  refine ⟨fun along => ?_, fun few throughout => ?_⟩
  · exact throughout_of_along Earliest (fun _ => id) (fun _ _ _ => earliest_step) (earliest_fresh sec microsec) along
  · exact agrees_along ⟨le_refl _, by simpa [fresh, waitCreate] using few⟩ throughout

/-- A timer of two seconds, and then one of one and a half. -/
theorem earliest_throughout_secondShorter :
    Throughout step Earliest (fresh 0 0)
      [.timer ⟨2, 0, by decide⟩, .reader 5, .timer ⟨1, 500000, by decide⟩] :=
  (earliest_throughout 0 0 [.timer ⟨2, 0, by decide⟩, .reader 5, .timer ⟨1, 500000, by decide⟩]).1 (by decide)

/-- A timer of one second, and then one of two million microseconds. -/
theorem earliest_throughout_fails :
    ¬ Throughout step Earliest (fresh 0 0) [.timer ⟨1, 0, by decide⟩, .timer ⟨0, 2000000, by decide⟩] := by
  intro throughout
  have ended : exec step (fresh 0 0) [.timer ⟨1, 0, by decide⟩, .timer ⟨0, 2000000, by decide⟩] = some
      { wait := { maxNumber := 2, timerNumber := 2, sec := 0, microsec := 2000000, elements := [] }
        timers := [⟨1, ⟨1, 0, by decide⟩⟩, ⟨2, ⟨0, 2000000, by decide⟩⟩] } := by decide
  exact absurd (throughout_final throughout ended) (by decide)

/-! ## Timers of less than a second and a second -/

def Normal (microsec : Int64) : Prop := 0 ≤ microsec ∧ microsec < 1000000

/-- The comparison of the pairs is the comparison of the durations. -/
theorem before_iff_total {wait : Wait} {sec microsec : Int64} (normal : Normal microsec)
    (kept : Normal wait.microsec) :
    Before wait sec microsec ↔ total sec microsec < total wait.sec wait.microsec := by
  obtain ⟨lower, upper⟩ := normal
  obtain ⟨lower', upper'⟩ := kept
  simp only [Before, total, Int64.lt_iff_toInt_lt, Int64.le_iff_toInt_le, ← Int64.toInt_inj] at *
  have million : (1000000 : Int64).toInt = 1000000 := by decide
  have zero : (0 : Int64).toInt = 0 := by decide
  omega

theorem agrees_of_normal {count : Nat} (room : Room state.wait (count + 1))
    (kept : state.wait.timerNumber ≠ 0 -> Normal state.wait.microsec)
    (normal : ∀ duration, addition = .timer duration -> Normal duration.microsec) : Agrees state addition := by
  cases addition with
  | reader fd => trivial
  | timer duration =>
      exact ⟨fun number => before_iff_total (normal duration rfl) (kept number), fun _ => room.ne_zero⟩

theorem normal_step (kept : state.wait.timerNumber ≠ 0 -> Normal state.wait.microsec)
    (normal : ∀ duration, addition = .timer duration -> Normal duration.microsec)
    (taken : step state addition = some next) : next.wait.timerNumber ≠ 0 -> Normal next.wait.microsec := by
  cases addition with
  | reader fd =>
      cases taken
      exact kept
  | timer duration =>
      by_cases keeps : state.wait.timerNumber = 0 ∨ Before state.wait duration.sec duration.microsec
      · obtain rfl := Option.some.inj ((step_kept keeps).symm.trans taken)
        exact fun _ => normal duration rfl
      · obtain rfl := Option.some.inj ((step_dropped keeps).symm.trans taken)
        exact kept

theorem normal_along {additions : List Addition} (room : Room state.wait additions.length)
    (kept : state.wait.timerNumber ≠ 0 -> Normal state.wait.microsec)
    (normal : ∀ duration, Addition.timer duration ∈ additions -> Normal duration.microsec) :
    Along step Agrees state additions := by
  induction additions generalizing state with
  | nil => trivial
  | cons addition rest ih =>
      have here : ∀ duration, addition = .timer duration -> Normal duration.microsec :=
        fun duration same => normal duration (same ▸ List.mem_cons_self)
      refine ⟨agrees_of_normal room kept here, fun next taken => ?_⟩
      exact ih (room_step room taken) (normal_step kept here taken)
        fun duration member => normal duration (List.mem_cons_of_mem _ member)

theorem earliest_of_normal {additions : List Addition} {state : State} (earliest : Earliest state)
    (room : Room state.wait additions.length) (kept : state.wait.timerNumber ≠ 0 -> Normal state.wait.microsec)
    (normal : ∀ duration, Addition.timer duration ∈ additions -> Normal duration.microsec) :
    Throughout step Earliest state additions :=
  throughout_of_along Earliest (fun _ => id) (fun _ _ _ => earliest_step) earliest (normal_along room kept normal)

end ZSystem.Timer
