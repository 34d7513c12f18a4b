import ZSystem.MessageLoop.Delivery

set_option autoImplicit false

/-!
# The memory of the message loop

Which elements are allocated: those in the queue, and the one that the loop thread has taken out.
-/

namespace ZSystem.MessageLoop

open Posix Transition

/-- The element that the loop thread has taken out of the queue and not freed. -/
def PC.hand : PC -> Option Nat
  | .duplicate (.runUnlock element) | .op (.runUnlock element) | .dropDuplicate (.runUnlock element) =>
      if element = 0 then none else some element
  | .runRespond element | .runFree element => some element
  | _ => none

/-- Nothing is allocated but what the queue or the loop thread still has. -/
def Owned (data : Data) (pc : PC) : Prop :=
  ∀ address addresses, (data.queue.elements address).isSome ->
    Chain.Linked data.queue.elements Element.next data.queue.first addresses ->
    address ∈ addresses ∨ pc.hand = some address

/-- What is allocated in the memory of the loop, and that it is freed once. -/
structure Accounted (state : State) : Prop where
  exact : ∃ pc addresses contents, state.status .run = .running pc ∧
    Represents state.data.queue addresses contents ∧
      ∀ address, (state.data.queue.elements address).isSome ↔ address ∈ addresses ∨ pc.hand = some address
  frees : ∀ element, state.status .run = .running (.runFree element) ->
    (state.data.queue.elements element).isSome
  empty : ∀ pc, state.status .run = .running pc -> pc.left = true ->
    ∀ address, state.data.queue.elements address = none

section

variable {data after : Data} {thread : ThreadId} {pc place runs : PC} {value values : Sem -> Nat}
  {addresses contents hand : List Nat} {requests : Nat}

theorem insert_allocated {queue inserted : Queue} {address posted other : Nat}
    (done : queue.insert address posted = some inserted) (present : (inserted.elements other).isSome) :
    other = address ∨ (queue.elements other).isSome := by
  unfold Queue.insert at done
  have updated {content : Option Element}
      (there : (Function.update queue.elements address content other).isSome) :
      other = address ∨ (queue.elements other).isSome := by
    by_cases same : other = address
    · exact Or.inl same
    · exact Or.inr (by simpa [same] using there)
  split_ifs at done with used last
  · obtain ⟨node, read, rfl⟩ := Option.map_eq_some_iff.mp done
    by_cases tail : other = queue.last
    · exact updated (by rw [tail, read]; rfl)
    · exact updated (by simpa [tail] using present)
  · cases done
    exact updated present

theorem Owned.of_queue (owned : Owned data pc) (queue : after.queue = data.queue) (hand : place.hand = pc.hand) :
    Owned after place := by
  intro address addresses present linked
  rw [queue] at present linked
  exact hand ▸ owned address addresses present linked

theorem Owned.client (owned : Owned data runs) (represents : Represents data.queue addresses contents)
    (move : Move thread data value pc place after values) (other : pc.ofRun = false) : Owned after runs := by
  cases move with
  | @insert posted address queue inserted =>
      intro other chain present linked
      obtain rfl := Chain.linked_unique linked (represents.insert inserted).linked
      rcases insert_allocated inserted present with rfl | before
      · simp
      · exact (owned other addresses before represents.linked).imp_left fun member => by simp [member]
  | take | respond | free | afterAbort | destroy | freeLoop => cases other
  | @acquire site | @release site | @drop site => cases site <;> exact owned.of_queue rfl rfl
  | _ => exact owned.of_queue rfl rfl

theorem Owned.run (owned : Owned data pc) (flow : Flow data requests pc addresses contents hand)
    (move : Move thread data value pc place after values) (mine : pc.ofRun = true) : Owned after place := by
  cases move with
  | @take element queue removed =>
      intro address chain present linked
      obtain ⟨rfl, rfl, rfl⟩ | ⟨rest, posted, waiting, node, rfl, rfl, valid, -, memory, -, -, remaining⟩ :=
        flow.queue.remove removed
      · exact (owned address chain present linked).imp_right fun none => by cases none
      · obtain rfl := Chain.linked_unique linked remaining.linked
        rw [memory] at present
        obtain member | none := owned address _ present flow.queue.linked
        · obtain rfl | later := List.mem_cons.mp member
          · exact Or.inr (by simp [PC.hand, valid])
          · exact Or.inl later
        · cases none
  | @free element =>
      intro address chain present linked
      obtain ⟨-, outside, -⟩ := flow.hand
      obtain rfl := Chain.linked_unique linked (flow.queue.free outside).linked
      have differ : address ≠ element := by
        rintro rfl
        simp [Queue.free] at present
      refine (owned address chain (by simpa [Queue.free, differ] using present) flow.queue.linked).imp_right ?_
      intro taken
      exact absurd (Option.some.inj taken).symm differ
  | @duplicate site | @acquire site | @release site => cases site <;> exact owned.of_queue rfl rfl
  | @drop site =>
      cases site with
      | runUnlock element =>
          refine owned.of_queue rfl ?_
          simp only [Site.next]
          split_ifs with null <;> simp [PC.hand, null]
      | runAwait | runLock => exact owned.of_queue rfl rfl
      | _ => cases mine
  | respond | afterAbort | destroy | freeLoop => exact owned.of_queue rfl rfl
  | _ => cases mine

theorem Flow.hand_allocated (flow : Flow data requests pc addresses contents hand) {address : Nat}
    (taken : pc.hand = some address) : (data.queue.elements address).isSome := by
  have held := flow.hand
  unfold Hand at held
  unfold PC.hand at taken
  split at taken
  case h_1 | h_2 | h_3 =>
    split_ifs at taken with null
    cases taken
    simp only [null, if_false] at held
    obtain ⟨-, node, read, -⟩ := held
    simp [read]
  case h_4 =>
    cases taken
    obtain ⟨-, node, read, -⟩ := held
    simp [read]
  case h_5 =>
    cases taken
    obtain ⟨-, -, node, read⟩ := held
    simp [read]
  case h_6 => cases taken

theorem PC.left_hand (left : pc.left = true) : pc.hand = none := by
  unfold PC.left at left
  split at left
  case h_1 | h_2 | h_3 =>
    obtain rfl := beq_iff_eq.mp left
    rfl
  all_goals first | rfl | cases left

end

section

variable {state next : State} {action : Action}

structure Owning (state : State) : Prop where
  flowing : Flowing state
  owned : ∀ pc, state.status .run = .running pc -> Owned state.data pc

theorem Owning.preserved (owning : Owning state) (taken : step state action = some next) : Owning next := by
  have flowing := owning.flowing
  refine ⟨flowing.preserved taken, fun pc' there => ?_⟩
  obtain ⟨pc, place, here, moved, move⟩ := step_move flowing.sectioned.all taken
  obtain ⟨runs, addresses, contents, hand, at', flow⟩ := flowing.flow
  have owned := owning.owned runs at'
  have placed := flowing.placed _ pc here
  by_cases mine : action.actor = .run
  · rw [mine] at here moved move placed
    cases here.symm.trans at'
    obtain rfl : place = pc' := by simpa [moved] using there
    exact owned.run flow move (placed.mpr rfl)
  · obtain rfl : runs = pc' := by simpa [moved, Ne.symm mine, at'] using there
    exact owned.client flow.queue move (by simpa using fun ofRun => mine (placed.mp ofRun))

theorem owning_of_reach (reached : Reachable step initial state) : Owning state :=
  reached.invariant Owning ⟨initial_flowing, fun _ _ _ _ present => by cases present⟩
    fun _ _ _ owning _ taken => owning.preserved taken

theorem Owning.exact (owning : Owning state) {runs : PC} {addresses contents hand : List Nat} {requests : Nat}
    (here : state.status .run = .running runs) (flow : Flow state.data requests runs addresses contents hand)
    (address : Nat) :
    (state.data.queue.elements address).isSome ↔ address ∈ addresses ∨ runs.hand = some address := by
  refine ⟨fun present => owning.owned runs here address addresses present flow.queue.linked, ?_⟩
  rintro (member | taken)
  · obtain ⟨-, node, read⟩ := Chain.segment_allocated flow.queue.linked member
    simp [read]
  · exact flow.hand_allocated taken

theorem Owning.empty (owning : Owning state) {pc : PC} (there : state.status .run = .running pc)
    (left : pc.left = true) (address : Nat) : state.data.queue.elements address = none := by
  obtain ⟨runs, addresses, contents, hand, here, flow⟩ := owning.flowing.flow
  cases here.symm.trans there
  obtain ⟨rfl, -⟩ := flow.left left
  have none_linked : addresses = [] := List.eq_nil_of_length_eq_zero flow.queue.length
  have absent := (owning.exact here flow address).not.mpr (by simp [none_linked, PC.left_hand left])
  simpa using absent

/--
The elements that are allocated are those in the queue and the one that the loop thread has in its hand;
none of them is freed twice, and none is left when the loop ends.
-/
theorem elements_accounted (reached : Reachable step initial state) : Accounted state := by
  have owning := owning_of_reach reached
  obtain ⟨runs, addresses, contents, hand, here, flow⟩ := owning.flowing.flow
  refine ⟨⟨runs, addresses, contents, here, flow.queue, owning.exact here flow⟩, fun element there => ?_,
    fun pc there left => owning.empty there left⟩
  cases here.symm.trans there
  exact flow.hand_allocated rfl

/-- A post is delivered, and an abort ends the loop. -/
theorem elements_accounted_abortBetweenPosts :
    ∃ final, exec step initial abortBetweenPosts = some final ∧ Accounted final ∧
      ∀ address, final.data.queue.elements address = none := by
  have parts : (exec step initial abortBetweenPosts).map (fun final => final.status .run) =
      some (.running .runAfterAbort) := by decide
  obtain ⟨final, run, here⟩ := Option.map_eq_some_iff.mp parts
  have accounted := elements_accounted (reachable_of_exec _ run)
  exact ⟨final, run, accounted, accounted.empty _ here rfl⟩

end

end ZSystem.MessageLoop
