import ZSystem.MessageLoop.Lifetime

set_option autoImplicit false

/-!
# A message loop under load

A post announces its request while it holds semaphore 0. When semaphore 1 is at its limit the announcement
waits for the loop thread, and the loop thread may be waiting for semaphore 0.
-/

namespace ZSystem.MessageLoop

open Posix Transition

/-! ## Calls from inside `response` -/

/-- The loop thread is inside `response`; the calls that it makes there are those of this client. -/
def callback : ThreadId := .client 0

def inResponse (state : State) : Bool :=
  match state.status .run with
  | .running (.runFree _) => true
  | _ => false

/-- `response` makes calls only while it runs, and it returns when its call has returned. -/
def nested (state : State) : Action -> Bool
  | .call thread _ => thread != callback || inResponse state
  | .run thread _ => thread != .run || !inResponse state || decide (state.status callback = .running .caller)
  | _ => true

def loopStep (state : State) (action : Action) : Option State :=
  if nested state action then step state action else none

/--
As long as the loop is not freed, the thread that holds semaphore 0 inside a post or an abort, or the loop
thread, possibly in a call of its `response`, has a step.
-/
def Moves (state : State) : Prop :=
  ∀ holder pc, state.status holder = .running pc -> holder ≠ .run -> pc.locked = true ->
    state.data.freed = false -> ∃ thread pick, (thread = holder ∨ thread = .run ∨ thread = callback) ∧
      (loopStep state (.run thread pick)).isSome

/-! ## The condition -/

/-- The thread holds semaphore 0 and is going to announce something. -/
def PC.announces (aborting : Bool) : PC -> Bool
  | .dropDuplicate site =>
      match site with
      | .postLock _ | .abortLock => !aborting
      | _ => false
  | .postTest _ | .abortTest => !aborting
  | .postInsert _ => true
  | pc => pc.owing

/-- The next semaphore operation of the thread is to get semaphore 0, with nothing in between. -/
def PC.wants : PC -> Bool
  | .dropDuplicate site => decide (site = .runAwait)
  | .duplicate site | .op site =>
      match site with
      | .postLock _ | .abortLock | .runLock => true
      | _ => false
  | _ => false

def wants (state : State) (thread : ThreadId) : Bool :=
  match state.status thread with
  | .running pc => pc.wants
  | _ => false

/-- No other announcement fits in, and the loop thread needs semaphore 0 before it takes another request. -/
def Jammed (state : State) (holder : ThreadId) : Prop :=
  state.value .requests = 32767 ∧ (holder = callback ∨ wants state .run = true ∨ wants state callback = true)

/--
A post or abort that is going to announce something gets semaphore 0 only where nothing is jammed, and
`response` makes no call while another such call is waiting to announce.
-/
def Loads (state : State) : Action -> Prop
  | .run thread _ => ∀ site, state.status thread = .running (.op site) ->
      (PC.dropDuplicate site).announces state.data.aborting = true -> 0 < state.value .queue ->
        ¬ Jammed state thread
  | .call thread _ => thread = callback -> ∀ holder pc, state.status holder = .running pc ->
      pc.announces state.data.aborting = true -> state.value .requests ≠ 32767
  | _ => True

section Moves

variable {data after : Data} {thread : ThreadId} {pc place : PC} {value values : Sem -> Nat}

theorem PC.announces_locked {aborting : Bool} (announces : pc.announces aborting = true) : pc.locked = true := by
  cases pc with
  | dropDuplicate site => cases site <;> first | rfl | cases announces
  | duplicate | op => exact PC.owing_locked announces
  | postTest | postInsert | abortTest => rfl
  | _ => cases announces

theorem PC.announces_earlier {aborting later : Bool} (stays : aborting = true -> later = true)
    (announces : pc.announces later = true) : pc.announces aborting = true := by
  cases aborting with
  | true => exact stays rfl ▸ announces
  | false =>
      cases pc with
      | dropDuplicate site => cases site <;> first | rfl | cases announces
      | postTest | postInsert | abortTest => rfl
      | _ => exact announces

theorem PC.announces_wants {aborting : Bool} (announces : pc.announces aborting = true) : pc.wants = false := by
  cases pc with
  | duplicate site | op site | dropDuplicate site => cases site <;> first | rfl | cases announces
  | _ => rfl

theorem Move.aborting (move : Move thread data value pc place after values) (aborting : data.aborting = true) :
    after.aborting = true := by
  cases move with
  | @acquire site | @release site | @drop site => cases site <;> exact aborting
  | abort => rfl
  | _ => exact aborting

theorem Move.finite (move : Move thread data value pc place after values) (finite : data.queue.Finite) :
    after.queue.Finite := by
  cases move with
  | @acquire site | @release site | @drop site => cases site <;> exact finite
  | insert inserted => exact finite.insert inserted
  | take removed => exact finite.remove removed
  | free => exact Queue.Finite.update finite _ none
  | _ => exact finite

theorem Move.requests (move : Move thread data value pc place after values) (outside : pc.locked = false) :
    values .requests ≤ value .requests := by
  cases move with
  | @acquire site =>
      by_cases same : Sem.requests = site.sem
      · simp [← same]
      · simp [same]
  | @release site up =>
      cases site with
      | postLock | abortLock | runAwait | runLock => cases up
      | _ => cases outside
  | _ => exact le_rfl

theorem Move.announces (move : Move thread data value pc place after values)
    (announces : place.announces after.aborting = true) :
    values .requests = value .requests ∧ (pc.announces data.aborting = true ∨
      ∃ site, pc = .op site ∧ place.announces data.aborting = true ∧ place = .dropDuplicate site ∧
        0 < value .queue) := by
  cases move with
  | @acquire site down free =>
      cases site with
      | postLock | abortLock => exact ⟨by simp [Site.sem], Or.inr ⟨_, rfl, announces, rfl, free⟩⟩
      | _ => cases announces
  | call called => obtain ⟨posted, rfl⟩ | rfl := called <;> cases announces
  | @duplicate site => exact ⟨rfl, Or.inl announces⟩
  | @release site up => cases site <;> first | cases announces | cases up
  | @drop site =>
      cases site with
      | postLock | abortLock => exact ⟨rfl, Or.inl announces⟩
      | runUnlock element =>
          simp only [Site.next] at announces
          split_ifs at announces <;> cases announces
      | _ => cases announces
  | accept accepting | abort accepting => exact ⟨rfl, Or.inl (by simp [PC.announces, accepting])⟩
  | insert => exact ⟨rfl, Or.inl rfl⟩
  | _ => cases announces

theorem Move.wants (move : Move thread data value pc place after values) (wants : place.wants = true) :
    pc.wants = true ∨ pc = .caller ∨ values .requests < value .requests := by
  cases move with
  | call => exact Or.inr (Or.inl rfl)
  | @duplicate site => exact Or.inl wants
  | @acquire site down free =>
      obtain rfl : site = .runAwait := by simpa [PC.wants] using wants
      refine Or.inr (Or.inr ?_)
      simp only [Site.sem, Function.update_self]
      exact Nat.sub_lt free Nat.one_pos
  | @release site up =>
      obtain rfl : site = .runAwait := by simpa [PC.wants] using wants
      cases up
  | @drop site =>
      cases site with
      | runAwait => exact Or.inl rfl
      | runUnlock element =>
          simp only [Site.next] at wants
          split_ifs at wants <;> cases wants
      | _ => cases wants
  | _ => cases wants

end Moves

/-! ## Nothing is jammed -/

structure Loaded (state : State) : Prop where
  alive : Alive state
  finite : state.data.queue.Finite
  most : ∀ sem, state.value sem ≤ 32767
  calling : ∀ pc, state.status callback = .running pc -> pc ≠ .caller -> inResponse state = true
  clear : ∀ holder pc, state.status holder = .running pc -> pc.announces state.data.aborting = true ->
    ¬ Jammed state holder

section Steps

variable {state next : State} {action : Action} {thread : ThreadId} {pc place : PC}

theorem loopStep_eq_some : loopStep state action = some next ↔
    nested state action = true ∧ step state action = some next := by
  simp [loopStep]

theorem reached_step {allowed : State -> Action -> Prop} (reached : Reach loopStep allowed initial state) :
    Reachable step initial state :=
  reached.invariant (Reachable step initial) .refl fun _ _ _ before _ taken =>
    .tail before trivial (loopStep_eq_some.mp taken).2

theorem step_acts (all : AllRunning state) (taken : step state action = some next) :
    (∃ thread pick, action = .run thread pick) ∨ ∃ thread place, action = .call thread place := by
  cases action with
  | run thread pick => exact Or.inl ⟨thread, pick, rfl⟩
  | call thread place => exact Or.inr ⟨thread, place, rfl⟩
  | wake thread =>
      obtain ⟨pc, running⟩ := all thread
      simp [step, Program.step, running] at taken
  | interrupt thread => simp [step, Program.step, program] at taken

theorem calls_of_caller (all : AllRunning state) (here : state.status action.actor = .running .caller)
    (taken : step state action = some next) : ∃ place, action = .call action.actor place := by
  rcases step_acts all taken with ⟨thread, pick, rfl⟩ | ⟨thread, place, rfl⟩
  · obtain ⟨-, ran, -⟩ := run_parts here taken
    simp [Program.outcome, program, code, Instr.result] at ran
  · exact ⟨place, rfl⟩

theorem inResponse_iff :
    inResponse state = true ↔ ∃ element, state.status .run = .running (.runFree element) := by
  unfold inResponse
  split <;> simp_all

theorem wants_eq (here : state.status thread = .running pc) : wants state thread = pc.wants := by
  simp [wants, here]

theorem Loaded.calling_preserved (loaded : Loaded state) (allowed : nested state action = true)
    (taken : step state action = some next) (there : next.status callback = .running pc) (inside : pc ≠ .caller) :
    inResponse next = true := by
  have flowing := loaded.alive.flowing
  obtain ⟨origin, place, here, moved, -⟩ := step_move flowing.sectioned.all taken
  have apart : callback ≠ .run := ThreadId.noConfusion
  by_cases mine : action.actor = callback
  · -- A call begins inside `response`, or has begun there.
    have within : inResponse state = true := by
      by_cases outside : origin = .caller
      · subst outside
        obtain ⟨place, call⟩ := calls_of_caller flowing.sectioned.all here taken
        rw [call, mine] at allowed
        simpa [nested] using allowed
      · exact loaded.calling origin (mine ▸ here) outside
    obtain ⟨element, running⟩ := inResponse_iff.mp within
    exact inResponse_iff.mpr ⟨element, by simpa [moved, mine, Ne.symm apart] using running⟩
  · have there : state.status callback = .running pc := by simpa [moved, Ne.symm mine] using there
    have within := loaded.calling pc there inside
    obtain ⟨element, running⟩ := inResponse_iff.mp within
    by_cases run : action.actor = .run
    · -- The loop thread does not go on before the call has returned.
      obtain ⟨pick, rfl⟩ := flowing.runs run taken
      simp [nested, within, there, inside] at allowed
    · exact inResponse_iff.mpr ⟨element, by simpa [moved, Ne.symm run] using running⟩

theorem runs_of_inside (all : AllRunning state) (here : state.status action.actor = .running pc)
    (inside : pc ≠ .caller) (taken : step state action = some next) :
    ∃ pick, action = .run action.actor pick := by
  rcases step_acts all taken with ⟨thread, pick, rfl⟩ | ⟨thread, place, rfl⟩
  · exact ⟨pick, rfl⟩
  · cases step_cases taken with
    | call there chosen =>
        cases here.symm.trans there
        change calls thread pc place state.data = _ at chosen
        exact absurd (calls_cases chosen).1 inside

theorem Loaded.clear_preserved (loaded : Loaded state) (loads : Loads state action)
    (taken : step state action = some next) {holder : ThreadId} (there : next.status holder = .running pc)
    (announces : pc.announces next.data.aborting = true) : ¬ Jammed next holder := by
  have sectioned := loaded.alive.flowing.sectioned
  obtain ⟨origin, place, here, moved, move⟩ := step_move sectioned.all taken
  have elsewhere {other : ThreadId} (differ : other ≠ action.actor) : next.status other = state.status other := by
    simp [moved, differ]
  have actor : next.status action.actor = .running place := by simp [moved]
  rintro ⟨full, why⟩
  by_cases same : holder = action.actor
  · subst same
    obtain rfl : place = pc := by simpa [moved] using there
    obtain ⟨requests, source⟩ := move.announces announces
    have still {other : ThreadId} (wanting : wants next other = true) : wants state other = true := by
      have differ : other ≠ action.actor := by
        rintro rfl
        simp [wants_eq actor, PC.announces_wants announces] at wanting
      simpa [wants, elsewhere differ] using wanting
    have jammed : Jammed state action.actor := ⟨requests ▸ full, why.imp_right (Or.imp still still)⟩
    rcases source with before | ⟨site, rfl, earlier, rfl, free⟩
    · exact loaded.clear _ origin here before jammed
    · obtain ⟨pick, run⟩ := runs_of_inside sectioned.all here PC.noConfusion taken
      rw [run] at loads
      exact loads site here earlier free jammed
  · have there : state.status holder = .running pc := elsewhere same ▸ there
    have earlier := PC.announces_earlier move.aborting announces
    have outside : origin.locked = false := by
      by_contra locked
      exact same (sectioned.lock.alone _ _ _ _ there here (PC.announces_locked earlier) (by simpa using locked))
    have full : state.value .requests = 32767 :=
      le_antisymm (loaded.most _) (full ▸ move.requests outside)
    -- Whoever wants semaphore 0 now has wanted it before, or makes a call.
    have before {other : ThreadId} (wanting : wants next other = true) :
        wants state other = true ∨ other = action.actor ∧ origin = .caller := by
      by_cases differ : other = action.actor
      · subst differ
        rcases move.wants (wants_eq actor ▸ wanting) with wants | caller | fewer
        · exact Or.inl (wants_eq here ▸ wants)
        · exact Or.inr ⟨rfl, caller⟩
        · omega
      · exact Or.inl (by simpa [wants, elsewhere differ] using wanting)
    refine loaded.clear holder pc there earlier ⟨full, why.imp_right ?_⟩
    rintro (run | call)
    · refine Or.inl ((before run).resolve_right fun ⟨mine, caller⟩ => ?_)
      subst caller
      cases (loaded.alive.flowing.placed _ _ here).mpr mine.symm
    · refine Or.inr ((before call).resolve_right fun ⟨mine, caller⟩ => ?_)
      subst caller
      obtain ⟨place, call⟩ := calls_of_caller sectioned.all here taken
      rw [call] at loads
      exact loads mine.symm holder pc there earlier full

theorem Loaded.preserved (loaded : Loaded state) (loads : Loads state action)
    (taken : loopStep state action = some next) : Loaded next := by
  obtain ⟨allowed, taken⟩ := loopStep_eq_some.mp taken
  obtain ⟨origin, place, -, -, move⟩ := step_move loaded.alive.flowing.sectioned.all taken
  exact ⟨loaded.alive.preserved taken, move.finite loaded.finite, value_most rfl loaded.most taken,
    fun _ there inside => loaded.calling_preserved allowed taken there inside,
    fun _ _ there announces => loaded.clear_preserved loads taken there announces⟩

/-! ## Who has a step -/

/-- Nothing outside its own code keeps the thread from its next step. -/
def Ready (state : State) : PC -> Prop
  | .caller | .finished => False
  | .duplicate _ => state.data.destroyed = false
  | .op site => if site.down then 0 < state.value site.sem else state.value site.sem < 32767
  | _ => True

theorem step_isSome {pick : Nat} (here : state.status thread = .running pc)
    (performed : (program.perform thread pick state (code thread pc)).isSome) :
    (step state (.run thread pick)).isSome := by
  simpa [step, Program.step, here, program] using performed

theorem Alive.proceeds (alive : Alive state) (finite : state.data.queue.Finite)
    (here : state.status thread = .running pc) (kept : state.data.freed = false) (ready : Ready state pc) :
    ∃ pick, (step state (.run thread pick)).isSome := by
  have flowing := alive.flowing
  obtain ⟨origin, addresses, contents, hand, there, flow⟩ := flowing.flow
  -- A place of the loop thread is the one that the account of the queue is about.
  have running (mine : pc.ofRun = true) : origin = pc := by
    obtain rfl := (flowing.placed thread pc here).mp mine
    cases here.symm.trans there
    rfl
  cases pc with
  | caller | finished => exact ready.elim
  | duplicate site =>
      have present : state.data.destroyed = false := ready
      exact ⟨0, step_isSome here (by simp [code, Program.perform, present])⟩
  | op site =>
      refine ⟨0, step_isSome here ?_⟩
      cases down : site.down with
      | true =>
          have free : 0 < state.value site.sem := by simpa [Ready, down] using ready
          simp [code, Program.perform, down, free]
      | false =>
          have room : state.value site.sem < 32767 := by simpa [Ready, down] using ready
          simp [code, Program.perform, program, down, room]
  | postInsert posted =>
      obtain ⟨address, queue, inserted⟩ := flow.queue.inserts finite posted
      exact ⟨address, step_isSome here (by simp [code, onLoop, Program.perform, kept, inserted])⟩
  | runTake =>
      have removed := flow.queue.remove_isSome
      exact ⟨0, step_isSome here (by simpa [code, onLoop, Program.perform, kept] using removed)⟩
  | runRespond element =>
      obtain rfl := running rfl
      obtain ⟨-, node, read, -⟩ := flow.hand
      exact ⟨0, step_isSome here (by simp [code, onLoop, Program.perform, kept, read])⟩
  | dropDuplicate | runFree | runFreeLoop =>
      exact ⟨0, step_isSome here (by simp [code, Program.perform])⟩
  | postTest | abortTest | runAfterAbort | runDestroy =>
      exact ⟨0, step_isSome here (by simp [code, onLoop, Program.perform, kept])⟩

/-- A holder that is not ready is about to announce, and semaphore 1 is full. -/
theorem Alive.holder_ready (alive : Alive state) (most : ∀ sem, state.value sem ≤ 32767)
    (here : state.status thread = .running pc) (locked : pc.locked = true) (other : thread ≠ .run)
    (present : state.data.destroyed = false) :
    Ready state pc ∨ pc.announces state.data.aborting = true ∧ state.value .requests = 32767 := by
  have few : state.value .queue ≤ 1 := alive.flowing.sectioned.lock.most
  have client : pc.ofRun = false := by
    by_contra mine
    exact other ((alive.flowing.placed thread pc here).mp (by simpa using mine))
  cases pc with
  | duplicate site => exact Or.inl present
  | op site =>
      cases site with
      | postAnnounce | abortAnnounce =>
          by_cases full : state.value .requests = 32767
          · exact Or.inr ⟨rfl, full⟩
          · exact Or.inl (lt_of_le_of_ne (most .requests) full)
      | postUnlock | abortUnlock =>
          refine Or.inl ?_
          change state.value .queue < 32767
          omega
      | runUnlock => cases client
      | _ => cases locked
  | dropDuplicate | postTest | postInsert | abortTest => exact Or.inl trivial
  | runTake => cases client
  | _ => cases locked

/-- Where semaphore 1 is full, the loop thread takes a request unless it needs semaphore 0 before. -/
theorem Loaded.run_ready (loaded : Loaded state) (here : state.status .run = .running pc)
    (full : state.value .requests = 32767) (present : state.data.destroyed = false)
    (unlocked : pc.locked = false) (unwanted : pc.wants = false) : Ready state pc := by
  have past := loaded.alive.destroyed pc here
  have mine := (loaded.alive.flowing.placed .run pc here).mpr rfl
  cases pc with
  | duplicate site => exact present
  | op site =>
      cases site with
      | runAwait =>
          change 0 < state.value .requests
          omega
      | runLock => cases unwanted
      | runUnlock => cases unlocked
      | _ => cases mine
  | finished =>
      rw [present] at past
      cases past
  | caller | postTest | postInsert | abortTest => cases mine
  | _ => trivial

theorem Loaded.callback_ready (loaded : Loaded state) (here : state.status callback = .running pc)
    (inside : pc ≠ .caller) (present : state.data.destroyed = false) (unlocked : pc.locked = false)
    (unwanted : pc.wants = false) : Ready state pc := by
  have client : pc.ofRun = false := by
    by_contra mine
    cases (loaded.alive.flowing.placed callback pc here).mp (by simpa using mine)
  cases pc with
  | duplicate site => exact present
  | op site =>
      cases site with
      | postLock | abortLock => cases unwanted
      | runAwait | runLock | runUnlock => cases client
      | _ => cases unlocked
  | caller => exact absurd rfl inside
  | finished => cases client
  | _ => trivial

theorem Loaded.moves (loaded : Loaded state) : Moves state := by
  intro holder pc here other locked kept
  have flowing := loaded.alive.flowing
  obtain ⟨runs, there⟩ := flowing.sectioned.all .run
  have acts {thread : ThreadId} {place : PC} (at' : state.status thread = .running place)
      (ready : Ready state place) (among : thread = holder ∨ thread = .run ∨ thread = callback)
      (allowed : ∀ pick, nested state (.run thread pick) = true) :
      ∃ thread pick, (thread = holder ∨ thread = .run ∨ thread = callback) ∧
        (loopStep state (.run thread pick)).isSome := by
    obtain ⟨pick, taken⟩ := loaded.alive.proceeds loaded.finite at' kept ready
    exact ⟨thread, pick, among, by simpa [loopStep, allowed pick] using taken⟩
  have client {thread : ThreadId} (client : thread ≠ .run) (pick : Nat) :
      nested state (.run thread pick) = true := by simp [nested, client]
  cases present : state.data.destroyed with
  | true =>
      -- The loop thread is about to free the loop.
      have past : runs.past = true := (loaded.alive.destroyed runs there).symm.trans present
      have unfreed := (loaded.alive.freed runs there).symm.trans kept
      obtain rfl : runs = .runFreeLoop := by cases runs <;> simp [PC.past] at past unfreed ⊢
      exact acts there trivial (Or.inr (Or.inl rfl)) fun _ => by simp [nested, inResponse, there]
  | false =>
      rcases loaded.alive.holder_ready loaded.most here locked other present with ready | ⟨announces, full⟩
      · exact acts here ready (Or.inl rfl) (client other)
      · have clear := loaded.clear holder pc here announces
        simp only [Jammed, full, true_and, not_or, Bool.not_eq_true] at clear
        obtain ⟨apart, runWants, callWants⟩ := clear
        have unlocked {thread : ThreadId} {place : PC} (at' : state.status thread = .running place)
            (differ : holder ≠ thread) : place.locked = false := by
          by_contra also
          exact differ (flowing.sectioned.lock.alone _ _ _ _ here at' locked (by simpa using also))
        have ready := loaded.run_ready there full present (unlocked there other)
          ((wants_eq there).symm.trans runWants)
        obtain ⟨calls, calling⟩ := flowing.sectioned.all callback
        by_cases outside : calls = .caller
        · exact acts there ready (Or.inr (Or.inl rfl)) fun _ => by simp [nested, calling, outside]
        · have ready := loaded.callback_ready calling outside present (unlocked calling apart)
            ((wants_eq calling).symm.trans callWants)
          exact acts calling ready (Or.inr (Or.inr rfl)) (client ThreadId.noConfusion)

theorem initial_loaded : Loaded initial where
  alive := initial_alive
  finite := ⟨0, fun _ _ => rfl⟩
  most sem := by cases sem <;> simp [initial]
  calling pc there inside := by
    cases there
    exact absurd rfl inside
  clear holder pc there announces := by cases holder <;> cases there <;> cases announces

/--
In a run in which no announcement waits for a loop thread that waits for semaphore 0, no post or abort holds
semaphore 0 for ever.
-/
theorem moves_under_load (reached : Reach loopStep Loads initial state) : Moves state :=
  (reached.invariant Loaded initial_loaded fun _ _ _ loaded loads taken => loaded.preserved loads taken).moves

end Steps

theorem loads_of_room {state : State} (action : Action) (room : state.value .requests < 32767) :
    Loads state action := by
  cases action with
  | run thread pick => exact fun _ _ _ _ jammed => absurd jammed.1 room.ne
  | call thread place => exact fun _ _ _ _ _ => room.ne
  | _ => trivial

/-- `response` posts while it handles the first message. -/
def postFromResponse : List Action :=
  .call (.client 1) (.duplicate (.postLock 7)) :: runs (.client 1) 11 ++ runs .run 11 ++
    .call callback (.duplicate (.postLock 8)) :: List.replicate 6 (.run callback 2)

theorem moves_under_load_postFromResponse :
    ∃ final, exec loopStep initial postFromResponse = some final ∧
      final.status callback = .running (.op .postAnnounce) ∧ Moves final := by
  have reached : (exec loopStep initial postFromResponse).map (fun final => final.status callback) =
      some (.running (.op .postAnnounce)) := by decide
  obtain ⟨final, run, holds⟩ := Option.map_eq_some_iff.mp reached
  have room : Along loopStep (fun state _ => state.value .requests < 32767) initial postFromResponse := by decide
  exact ⟨final, run, holds, moves_under_load ((reach_of_along run room).mono fun _ action => loads_of_room action)⟩

/-! ## 32767 requests -/

/-- `count` requests are announced, the loop thread is at `place`, client 1 at `client`, and nobody else inside. -/
structure Busy (count : Nat) (place client : PC) (state : State) : Prop where
  reached : Reachable loopStep initial state
  finite : state.data.queue.Finite
  queue : state.value .queue = (!client.locked).toNat
  requests : state.value .requests = count
  run : state.status .run = .running place
  client : state.status (.client 1) = .running client
  others : ∀ number, number ≠ 1 -> state.status (.client number) = .running .caller
  accepting : state.data.aborting = false
  present : state.data.destroyed = false
  kept : state.data.freed = false

section Busy

variable {count : Nat} {place client : PC} {state : State}

theorem Busy.after (busy : Busy count place client state) {actions : List Action} {next : State} {more : Nat}
    {here there : PC} (path : exec loopStep state actions = some next) (finite : next.data.queue.Finite)
    (queue : next.value .queue = (!there.locked).toNat) (requests : next.value .requests = more)
    (run : next.status .run = .running here) (client : next.status (.client 1) = .running there)
    (others : ∀ number, number ≠ 1 -> next.status (.client number) = state.status (.client number))
    (flags : next.data.aborting = false ∧ next.data.destroyed = false ∧ next.data.freed = false) :
    Busy more here there next where
  reached := busy.reached.trans (reachable_of_exec _ path)
  finite := finite
  queue := queue
  requests := requests
  run := run
  client := client
  others number differ := (others number differ).trans (busy.others number differ)
  accepting := flags.1
  present := flags.2.1
  kept := flags.2.2

theorem Busy.announcing (busy : Busy count place .caller state) :
    ∃ next, Busy count place (.op .postAnnounce) next := by
  have free : state.value .queue = 1 := busy.queue
  have flowing : Flowing state := flowing_of_reach (reached_step busy.reached)
  obtain ⟨_, _, _, _, -, flow⟩ := flowing.flow
  obtain ⟨address, queue, inserted⟩ := flow.queue.inserts busy.finite 0
  obtain ⟨next, path, same, value, status, flags⟩ : ∃ next, exec loopStep state
      (.call (.client 1) (.duplicate (.postLock 0)) :: runs (.client 1) 4 ++
        [.run (.client 1) address, .run (.client 1) 1]) = some next ∧
      next.data.queue = queue ∧ next.value = Function.update state.value .queue 0 ∧
      next.status = Function.update state.status (.client 1) (.running (.op .postAnnounce)) ∧
      next.data.aborting = false ∧ next.data.destroyed = false ∧ next.data.freed = false := by
    simp [exec, runs, loopStep, nested, callback, step, Program.step, busy.client, free, program, calls, code,
      onLoop, Program.perform, State.goto, note, Data.duplicate, Data.drop, Data.release, Data.begin,
      Data.enqueue, Site.down, Site.sem, Site.next, Site.performed, Site.returned, busy.accepting,
      busy.present, busy.kept, inserted]
  refine ⟨next, busy.after path (same ▸ busy.finite.insert inserted) (by rw [value]; rfl) ?_ ?_ ?_ ?_ flags⟩
  · simp [value, busy.requests]
  · simp [status, busy.run]
  · simp [status]
  · intro number differ
    simp [status, differ]

theorem Busy.announced (busy : Busy count place (.op .postAnnounce) state) (room : count < 32767) :
    ∃ next, Busy (count + 1) place .caller next := by
  have held : state.value .queue = 0 := busy.queue
  obtain ⟨next, path, same, value, status, flags⟩ : ∃ next,
      exec loopStep state (runs (.client 1) 5) = some next ∧ next.data.queue = state.data.queue ∧
      next.value = Function.update (Function.update state.value .requests (count + 1)) .queue 1 ∧
      next.status = Function.update state.status (.client 1) (.running .caller) ∧
      next.data.aborting = false ∧ next.data.destroyed = false ∧ next.data.freed = false := by
    simp [exec, runs, loopStep, nested, step, Program.step, busy.client, held, busy.requests, program, code,
      Program.perform, State.goto, note, Data.duplicate, Data.drop, Data.release,
      Site.down, Site.sem, Site.next, Site.performed, Site.returned, busy.accepting, busy.present, busy.kept, room]
  refine ⟨next, busy.after path (same ▸ busy.finite) (by rw [value]; rfl) ?_ ?_ ?_ ?_ flags⟩
  · simp [value]
  · simp [status, busy.run]
  · simp [status]
  · intro number differ
    simp [status, differ]

/-- The loop thread takes a request and does not come to semaphore 0 yet. -/
theorem Busy.takes (busy : Busy (count + 1) (.duplicate .runAwait) .caller state) :
    ∃ next, Busy count (.dropDuplicate .runAwait) .caller next := by
  obtain ⟨next, path, same, value, status, flags⟩ : ∃ next,
      exec loopStep state (runs .run 2) = some next ∧
      next.data.queue = state.data.queue ∧ next.value = Function.update state.value .requests count ∧
      next.status = Function.update state.status .run (.running (.dropDuplicate .runAwait)) ∧
      next.data.aborting = false ∧ next.data.destroyed = false ∧ next.data.freed = false := by
    simp [exec, runs, loopStep, nested, inResponse, step, Program.step, busy.run, busy.requests, program, code,
      Program.perform, State.goto, note, Data.duplicate, Site.down, Site.sem, Site.performed, busy.accepting,
      busy.present, busy.kept]
  refine ⟨next, busy.after path (same ▸ busy.finite) ?_ ?_ ?_ ?_ ?_ flags⟩
  · simp [value, busy.queue]
  · simp [value]
  · simp [status]
  · simp [status, busy.client]
  · intro number differ
    simp [status]

/-- While client 1 holds semaphore 0, the loop thread comes to it. -/
theorem Busy.blocks (busy : Busy count (.dropDuplicate .runAwait) (.op .postAnnounce) state) :
    ∃ next, Busy count (.op .runLock) (.op .postAnnounce) next := by
  obtain ⟨next, path, same, value, status, flags⟩ : ∃ next, exec loopStep state (runs .run 2) = some next ∧
      next.data.queue = state.data.queue ∧ next.value = state.value ∧
      next.status = Function.update state.status .run (.running (.op .runLock)) ∧
      next.data.aborting = false ∧ next.data.destroyed = false ∧ next.data.freed = false := by
    simp [exec, runs, loopStep, nested, inResponse, step, Program.step, busy.run, program, code, Program.perform,
      State.goto, note, Data.duplicate, Data.drop, Data.release, Site.next, Site.returned, busy.accepting,
      busy.present, busy.kept]
  refine ⟨next, busy.after path (same ▸ busy.finite) (value ▸ busy.queue) (value ▸ busy.requests) ?_ ?_ ?_ flags⟩
  · simp [status]
  · simp [status, busy.client]
  · intro number differ
    simp [status]

theorem initial_busy : Busy 0 (.duplicate .runAwait) .caller initial :=
  ⟨.refl, ⟨0, fun _ _ => rfl⟩, rfl, rfl, rfl, rfl, fun _ _ => rfl, rfl, rfl, rfl⟩

theorem Busy.post (busy : Busy count place .caller state) (room : count < 32767) :
    ∃ next, Busy (count + 1) place .caller next := by
  obtain ⟨middle, announcing⟩ := busy.announcing
  exact announcing.announced room

theorem pending (few : count ≤ 32767) : ∃ state, Busy count (.dropDuplicate .runAwait) .caller state := by
  induction count with
  | zero =>
      obtain ⟨first, posted⟩ := initial_busy.post (by omega)
      exact posted.takes
  | succ count ih =>
      obtain ⟨state, busy⟩ := ih (by omega)
      exact busy.post (by omega)

/-- Semaphore 1 is full, the loop thread waits for semaphore 0, and its owner for the loop thread. -/
theorem Busy.stuck (busy : Busy 32767 (.op .runLock) (.op .postAnnounce) state) (thread : ThreadId) (pick : Nat) :
    loopStep state (.run thread pick) = none := by
  have blocked : step state (.run thread pick) = none := by
    cases thread with
    | run =>
        have held : state.value .queue = 0 := busy.queue
        simp [step, Program.step, busy.run, program, code, Program.perform, Site.down, Site.sem, held]
    | client number =>
        by_cases holder : number = 1
        · subst holder
          simp [step, Program.step, busy.client, program, code, Program.perform, Site.down, Site.sem, busy.requests]
        · simp [step, Program.step, busy.others number holder, program, code, Program.perform]
  simp [loopStep, blocked]

theorem moves_under_load_fails : ∃ state, Reachable loopStep initial state ∧
    state.status (.client 1) = .running (.op .postAnnounce) ∧ state.status .run = .running (.op .runLock) ∧
    (∀ thread pick, loopStep state (.run thread pick) = none) ∧ ¬ Moves state := by
  obtain ⟨first, full⟩ := pending le_rfl
  obtain ⟨second, announcing⟩ := full.announcing
  obtain ⟨state, busy⟩ := announcing.blocks
  refine ⟨state, busy.reached, busy.client, busy.run, busy.stuck, fun moves => ?_⟩
  obtain ⟨thread, pick, -, taken⟩ := moves (.client 1) _ busy.client ThreadId.noConfusion rfl busy.kept
  simp [busy.stuck thread pick] at taken

end Busy

end ZSystem.MessageLoop
