import ZSystem.Server.Descriptors

set_option autoImplicit false

/-!
# The server and its aborts

`ZSystem.Abort` has the places of a server and the bytes in its pipe, but no descriptors. Every run of the
server here is one there, as long as the kernel reports the pipe as readable only with a byte in it.
-/

namespace ZSystem.Server

open Posix Transition
open ZSystem.Abort (ServerPC ServerData SocketType serverProgram serverCode)

/-- `select` reports the pipe exactly while a byte is in it. -/
def Truthful (state : State) : Act -> Prop
  | .select (.ready fds) => state.server.stream.reader ∈ fds ↔ 0 < state.bytes
  | _ => True

def PC.outline (socket : SocketType) : PC -> ServerPC
  | .waitCreate | .addSocket | .addStream | .select => .runWait
  | .receive => socket.receive
  | .connect _ _ => .runConnect
  | .waitDestroy => .runDestroyWait
  | .closeReader | .closeWriter => .runDestroyStream
  | .free => .runFree
  | .finished => .finished

def PC.destroyed : PC -> Bool
  | .free | .finished => true
  | _ => false

abbrev Outline := Posix.State Abort.ThreadId Empty ServerPC ServerData

abbrev outlineStep (socket : SocketType) : Outline -> Posix.Act Abort.ThreadId ServerPC -> Option Outline :=
  (serverProgram socket).step

/-- Each client is going to call `zs__server_abort` once. -/
def clients : Outline where
  owner _ := none
  sleepers _ := []
  value _ := 0
  cancelled _ := false
  status
    | .run => .running .runWait
    | .client _ => .running .abortRead
  data := {}

structure Outlined (socket : SocketType) (state : State) (outline : Outline) : Prop where
  run : outline.status .run = .running (state.pc.outline socket)
  waiting : ∀ client, state.bytes ≤ client -> outline.status (.client client) = .running .abortRead
  bytes : outline.data.bytes = state.bytes
  destroyed : outline.data.destroyed = state.pc.destroyed
  freed : outline.data.freed = decide (state.pc = .finished)

section Outlined

variable {creation : Creation} {socket : SocketType} {state next : State} {action : Act} {outline : Outline}

theorem outline_acts {thread : Abort.ThreadId} {pick : Nat} {place later : ServerPC} {data : ServerData}
    {effect : Nat -> ServerData -> Option (ServerData × ServerPC)} (here : outline.status thread = .running place)
    (instr : serverCode socket place = .act effect) (ran : effect pick outline.data = some (data, later)) :
    outlineStep socket outline (.run thread pick) = some ({ outline with data := data }.goto thread later) := by
  simp [outlineStep, Program.step, here, serverProgram, instr, Program.perform, ran]

theorem Outlined.advance (outlined : Outlined socket state outline) (after : State) (pick : Nat)
    (data : ServerData) {effect : Nat -> ServerData -> Option (ServerData × ServerPC)}
    (instr : serverCode socket (state.pc.outline socket) = .act effect)
    (ran : effect pick outline.data = some (data, after.pc.outline socket))
    (bytes : after.bytes = state.bytes) (kept : data.bytes = outline.data.bytes)
    (destroyed : data.destroyed = after.pc.destroyed) (freed : data.freed = decide (after.pc = .finished)) :
    ∃ later, Reachable (outlineStep socket) outline later ∧ Outlined socket after later := by
  refine ⟨_, .tail .refl trivial (outline_acts outlined.run instr ran), ?_⟩
  refine ⟨by simp [State.goto], fun client unused => ?_, ?_, destroyed, freed⟩
  · simpa [State.goto] using outlined.waiting client (bytes ▸ unused)
  · exact kept.trans (outlined.bytes.trans bytes.symm)

theorem Outlined.stutter (outlined : Outlined socket state outline) (after : State)
    (place : after.pc.outline socket = state.pc.outline socket) (bytes : after.bytes = state.bytes)
    (destroyed : after.pc.destroyed = state.pc.destroyed)
    (freed : after.pc = .finished ↔ state.pc = .finished) :
    ∃ later, Reachable (outlineStep socket) outline later ∧ Outlined socket after later := by
  refine ⟨outline, .refl, ⟨?_, ?_, ?_, ?_, ?_⟩⟩
  · rw [place, outlined.run]
  · rw [bytes]
    exact outlined.waiting
  · rw [bytes, outlined.bytes]
  · rw [destroyed, outlined.destroyed]
  · simp only [freed, outlined.freed]

theorem Outlined.abort (outlined : Outlined socket state outline) (open' : state.pc.destroyed = false) :
    ∃ later, Reachable (outlineStep socket) outline later ∧
      Outlined socket { state with bytes := state.bytes + 1 } later := by
  have whole : outline.data.destroyed = false := outlined.destroyed.trans open'
  have reads : outlineStep socket outline (.run (.client state.bytes) 1) =
      some (outline.goto (.client state.bytes) .abortWrite) :=
    outline_acts (outlined.waiting _ le_rfl) rfl (by simp [whole])
  have there : (outline.goto (.client state.bytes) .abortWrite).status (.client state.bytes) =
      .running .abortWrite := by simp [State.goto]
  have writes : outlineStep socket (outline.goto (.client state.bytes) .abortWrite) (.run (.client state.bytes) 1) =
      some ({ outline.goto (.client state.bytes) .abortWrite with
        data := { outline.data with bytes := outline.data.bytes + 1 } }.goto (.client state.bytes) .caller) :=
    outline_acts there rfl (by simp [State.goto, whole])
  refine ⟨_, .tail (.tail .refl trivial reads) trivial writes, ?_⟩
  refine ⟨by simpa [State.goto] using outlined.run, fun client unused => ?_, ?_, outlined.destroyed, outlined.freed⟩
  · have other : client ≠ state.bytes := by
      simp only at unused
      omega
    simpa [State.goto, other] using outlined.waiting client (by simp only at unused; omega)
  · simp [State.goto, outlined.bytes]

theorem Outlined.step (setup : Setup creation state) (owned : Owned creation state)
    (outlined : Outlined socket state outline) (truthful : Truthful state action)
    (taken : step state action = some next) :
    ∃ later, Reachable (outlineStep socket) outline later ∧ Outlined socket next later := by
  have whole := outlined.destroyed
  have live := outlined.freed
  cases move_of_step taken with
  | waitCreate here | addSocket here | addStream here | closeReader here =>
      exact outlined.stutter _ (by simp [here, PC.outline]) rfl (by simp [here, PC.destroyed]) (by simp [here])
  | retry | openFd | closeFd => exact outlined.stutter _ rfl rfl rfl .rfl
  | abort =>
      refine outlined.abort ?_
      simp only [ZSystem.Server.step] at taken
      split_ifs at taken with shut
      rw [owned.stream] at shut
      cases here : state.pc <;> simp [PC.destroyed]
      all_goals exact shut (by simp [here, Creation.stream, ZSystem.Stream.close_isShut])
  | serve here =>
      exact outlined.advance _ 0 outline.data (by rw [here]; rfl) rfl rfl rfl
        (by simp [whole, here, PC.destroyed]) (by simp [live, here])
  | leave here reported result same =>
      have readable : 0 < state.bytes := truthful.mp (setup.reader ▸ ((setup.waited here result).mp same).2)
      exact outlined.advance _ 1 outline.data (by rw [here]; rfl) (by simp [outlined.bytes, readable, PC.outline])
        rfl rfl (by simp [whole, here, PC.destroyed]) (by simp [live, here])
  | drop here =>
      exact outlined.advance _ 0 outline.data (by rw [here]; cases socket <;> rfl) rfl rfl rfl
        (by simp [whole, here, PC.destroyed]) (by simp [live, here])
  | make here =>
      exact outlined.advance _ 1 outline.data (by rw [here]; cases socket <;> rfl) rfl rfl rfl
        (by simp [whole, here, PC.destroyed]) (by simp [live, here])
  | connect here | waitDestroy here =>
      exact outlined.advance _ 0 outline.data (by rw [here]; rfl) rfl rfl rfl
        (by simp [whole, here, PC.destroyed]) (by simp [live, here])
  | closeWriter here =>
      exact outlined.advance _ 0 { outline.data with destroyed := true } (by rw [here]; rfl) rfl rfl rfl rfl
        (by simp [live, here])
  | free here =>
      exact outlined.advance _ 0 { outline.data with freed := true } (by rw [here]; rfl) rfl rfl rfl
        (by simp [whole, here, PC.destroyed]) rfl

end Outlined

theorem server_outlined (creation : Creation) (state : State) (reached : Reach step Truthful creation.start state) :
    ∃ outline, Reachable (outlineStep creation.server.socketType) clients outline ∧
      Outlined creation.server.socketType state outline := by
  induction reached with
  | refl => exact ⟨clients, .refl, ⟨rfl, fun _ _ => rfl, rfl, rfl, rfl⟩⟩
  | tail before truthful taken ih =>
      obtain ⟨outline, earlier, outlined⟩ := ih
      have reached := before.mono fun _ _ _ => trivial
      obtain ⟨later, steps, there⟩ :=
        outlined.step (setup_of_reachable reached) (owned_of_reachable reached) truthful taken
      exact ⟨later, earlier.trans steps, there⟩

end ZSystem.Server
