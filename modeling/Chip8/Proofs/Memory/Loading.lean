import Chip8.Proofs.Run.LastWrite

namespace Chip8

/-- What a source gives when it is asked for more of a program. -/
inductive Delivery where
  | bytes (data : List UInt8)
  /-- Nothing yet; the source is to be asked again. -/
  | interruption
  | failure (message : String)
  deriving DecidableEq, Repr

namespace Delivery

def Continues : Delivery → Prop
  | bytes data => data ≠ []
  | interruption => True
  | failure _ => False

def data : Delivery → List UInt8
  | bytes data => data
  | interruption | failure _ => []

end Delivery

def Reader.ofDeliveries : List Delivery → Reader
  | [] | .bytes [] :: _ => ⟨[], none⟩
  | .bytes (first :: more) :: rest =>
    { ofDeliveries rest with bytes := first :: more ++ (ofDeliveries rest).bytes }
  | .interruption :: rest => ofDeliveries rest
  | .failure message :: _ => ⟨[], some message⟩

theorem Reader.ofDeliveries_append {parts : List Delivery} (more : ∀ d ∈ parts, d.Continues)
    (rest : List Delivery) :
    ofDeliveries (parts ++ rest) =
      ⟨parts.flatMap Delivery.data ++ (ofDeliveries rest).bytes, (ofDeliveries rest).failure⟩ := by
  induction parts with
  | nil => rfl
  | cons d parts ih =>
    have later := ih fun d' mem => more d' (List.mem_cons_of_mem _ mem)
    have first := more d (List.mem_cons_self ..)
    cases d with
    | bytes data =>
      cases data with
      | nil => exact absurd rfl first
      | cons byte data =>
        rw [List.cons_append, ofDeliveries, later, List.flatMap_cons, List.append_assoc]
        rfl
    | interruption =>
      rw [List.cons_append, ofDeliveries, later]
      rfl
    | failure message => exact first.elim

namespace Machine

/-- What a request to load a program comes to. -/
structure Loads (m : Machine) (program : List UInt8) (turn : Turn (Except Fault Unit)) : Prop where
  succeeds_iff : turn.result = .ok () ↔ program.length ≤ 3584
  machine_eq : turn.machine = m.setState { m.state with memory := turn.machine.state.memory }
  placed : turn.result = .ok () → ∀ k < program.length,
    turn.machine.state.memory.bytes[0x200 + k]? = program[k]?
  kept : ∀ a, a < 0x200 ∨ 0x200 + program.length ≤ a →
    turn.machine.state.memory.bytes[a]? = m.state.memory.bytes[a]?
  refused : 3584 < program.length →
    turn.result = .error (.programTooLarge program.length 3584) ∧ turn.machine = m
  /-- A program of a size that is let through is never refused by memory. -/
  fits : program.length ≤ 3584 → ∃ memory, m.state.memory.load 0x200 program = .ok memory

theorem loads_loadProgram (m : Machine) (program : List UInt8) :
    m.Loads program (m.loadProgram program) := by
  rw [loadProgram_eq]
  by_cases short : program.length ≤ programCapacity
  · have room : Memory.Fits programStart program.length := (fits_program_iff _).2 short
    rw [if_pos short]
    refine ⟨iff_of_true rfl short, rfl, ?_, ?_, fun long => absurd short (Nat.not_le.2 long),
      fun _ => ⟨_, if_pos room⟩⟩
    · intro _ k hk
      have ends : 0x200 + program.length ≤ 4096 := room.2
      change (Memory.overwrite _ 0x200 _)[0x200 + k]? = _
      rw [Memory.getElem?_overwrite, if_pos (by omega), Nat.add_sub_cancel_left]
    · intro a outside
      change (Memory.overwrite _ 0x200 _)[a]? = _
      rw [Memory.getElem?_overwrite, if_neg]
      omega
  · have long : 3584 < program.length := Nat.not_le.1 short
    rw [if_neg short]
    refine ⟨iff_of_false nofun short, rfl, nofun, fun _ _ => rfl, fun _ => ⟨rfl, rfl⟩,
      fun short' => absurd short' short⟩

theorem machine_of_loads {m : Machine} {loads : List Operation} (all : ∀ op ∈ loads, op.IsLoad) :
    (m.performAll loads).machine =
      m.setState { m.state with memory := (m.performAll loads).machine.state.memory } := by
  -- the last load changes nothing but memory in what the loads before it have left
  induction loads using List.reverseRecOn with
  | nil => rfl
  | append_singleton loads op ih =>
    have before := ih fun op' mem => all op' (List.mem_append_left _ mem)
    have load : op.IsLoad := all op (by simp)
    rw [machine_performAll_concat]
    generalize (m.performAll loads).machine = middle at *
    have move := middle.moves_perform op
    generalize (middle.perform op).machine = after at *
    cases move with
    | refuses _ _ => exact before
    | loads _ =>
      rw [before]
      rfl
    | _ => exact load.elim

theorem getElem?_memory_of_loads {m : Machine} {loads : List Operation}
    (all : ∀ op ∈ loads, op.IsLoad) {a : Nat} (ha : a < 4096) :
    (m.performAll loads).machine.state.memory.bytes[a]? =
      (Event.last? (fun e => e.loaded?.bind (Memory.placed · 0x200 a)) (m.history loads)).or
        m.state.memory.bytes[a]? := by
  have covers : ∀ e ∈ m.history loads,
      e.written? a = e.loaded?.bind (Memory.placed · 0x200 a) := by
    rintro ⟨before, op⟩ mem
    have load : op.IsLoad := all op (operation_mem_of_history mem)
    rw [Event.written?_of_isLoad load, Event.loaded?_eq]
  rw [getElem?_memory_performAll m loads ha, Event.last?, List.filterMap_congr covers]
  rfl

/-- A program is loaded if it is no longer than the memory behind the start, and else refused for
its size; where it is loaded it replaces as many bytes and nothing else, so that after any loads an
address holds the byte of the last program that was put over it. A reader that comes to an end loads
what it has given until then, in whatever pieces, and one that fails loads nothing. -/
theorem loading_is_exact (m : Machine) :
    (∀ program : List UInt8, m.Loads program (m.loadProgram program)) ∧
    (∀ loads : List Operation, (∀ op ∈ loads, op.IsLoad) →
      let after := (m.performAll loads).machine
      after = m.setState { m.state with memory := after.state.memory } ∧
      ∀ a < 4096, after.state.memory.bytes[a]? =
        (Event.last? (fun e => e.loaded?.bind (Memory.placed · 0x200 a)) (m.history loads)).or
          m.state.memory.bytes[a]?) ∧
    ∀ parts : List Delivery, (∀ d ∈ parts, d.Continues) → ∀ rest : List Delivery,
      m.loadFrom (.ofDeliveries parts) = m.loadProgram (parts.flatMap Delivery.data) ∧
      m.loadFrom (.ofDeliveries (parts ++ .bytes [] :: rest)) =
        m.loadProgram (parts.flatMap Delivery.data) ∧
      ∀ message : String, m.loadFrom (.ofDeliveries (parts ++ .failure message :: rest)) =
        ⟨.error (.unreadable message), m, []⟩ := by
  refine ⟨m.loads_loadProgram, ?_, ?_⟩
  · intro loads all after
    exact ⟨machine_of_loads all, fun a ha => getElem?_memory_of_loads all ha⟩
  · intro parts more rest
    have ended (rest' : List Delivery) (nothing : Reader.ofDeliveries rest' = ⟨[], none⟩) :
        m.loadFrom (.ofDeliveries (parts ++ rest')) =
          m.loadProgram (parts.flatMap Delivery.data) := by
      rw [Reader.ofDeliveries_append more, nothing, List.append_nil]
      rfl
    refine ⟨?_, ended _ rfl, ?_⟩
    · rw [← ended [] rfl, List.append_nil]
    · intro message
      rw [Reader.ofDeliveries_append more]
      rfl

/-- A byte over an older program, then a program that is a byte too long and a reader that fails
behind a byte; and a program in two pieces with an interruption between. -/
theorem loading_is_exact_over_an_older_program :
    let m := start .standard (.ofWords fun _ => 0)
    let loads : List Operation := [.loadProgram [0x60, 0x01], .loadFrom ⟨[0xAA], none⟩,
      .loadProgram (List.replicate 3585 0xFF), .loadFrom ⟨[0xBB], some "gone"⟩]
    let after := (m.performAll loads).machine
    after.state.memory.bytes[0x200]? = some 0xAA ∧ after.state.memory.bytes[0x201]? = some 0x01 ∧
      m.loadFrom (.ofDeliveries [.bytes [0x12], .interruption, .bytes [0x00], .bytes []]) =
        m.loadProgram [0x12, 0x00] ∧
      m.loadFrom (.ofDeliveries [.bytes [0x12], .failure "gone"]) =
        ⟨.error (.unreadable "gone"), m, []⟩ := by
  intro m loads after
  obtain ⟨-, several, reading⟩ := loading_is_exact m
  have all : ∀ op ∈ loads, op.IsLoad := by
    intro op mem
    simp only [loads, List.mem_cons, List.not_mem_nil, or_false] at mem
    rcases mem with rfl | rfl | rfl | rfl <;> trivial
  obtain ⟨-, bytes⟩ := several loads all
  obtain ⟨first, second⟩ :
      Event.last? (fun e => e.loaded?.bind (Memory.placed · 0x200 0x200)) (m.history loads) =
          some 0xAA ∧
        Event.last? (fun e => e.loaded?.bind (Memory.placed · 0x200 0x201)) (m.history loads) =
          some 0x01 := by
    decide +kernel
  obtain ⟨-, whole, -⟩ := reading [.bytes [0x12], .interruption, .bytes [0x00]]
    (by simp [Delivery.Continues]) []
  obtain ⟨-, -, failed⟩ := reading [.bytes [0x12]] (by simp [Delivery.Continues]) []
  refine ⟨?_, ?_, whole, failed "gone"⟩
  · rw [bytes 0x200 (by decide), first, Option.some_or]
  · rw [bytes 0x201 (by decide), second, Option.some_or]

end Machine

end Chip8
