import Chip8.Proofs.Run.History

namespace Chip8

/-- The second turn answers and reports as the first one, and the machines behind them are
related. -/
structure Turn.Matches {α : Type} (R : Machine → Machine → Prop) (t t' : Turn α) : Prop where
  result_eq : t'.result = t.result
  log_eq : t'.log = t.log
  related : R t.machine t'.machine

namespace Turn

variable {α β : Type} {R S : Machine → Machine → Prop} {t t' : Turn α}

theorem Matches.map (h : t.Matches R t') (f : α → β) : (t.map f).Matches R (t'.map f) where
  result_eq := congrArg f h.result_eq
  log_eq := h.log_eq
  related := h.related

theorem Matches.mono (h : t.Matches R t') (weaker : ∀ m m', R m m' → S m m') : t.Matches S t' where
  result_eq := h.result_eq
  log_eq := h.log_eq
  related := weaker _ _ h.related

end Turn

/-- The states agree in all that a step reads or reports, the call stack apart. -/
structure State.SameCore (s s' : State) : Prop where
  v_eq : s'.v = s.v
  i_eq : s'.i = s.i
  pc_eq : s'.pc = s.pc
  memory_eq : s'.memory = s.memory
  waiting_eq : s'.waiting = s.waiting

theorem State.SameCore.fetch_eq {s s' : State} (core : s.SameCore s') : s'.fetch = s.fetch := by
  rw [fetch, fetch, core.memory_eq, core.pc_eq]

theorem Instruction.waitingAfter_congr (i : Instruction) {s s' : State}
    (waiting : s'.waiting = s.waiting) : i.waitingAfter s' = i.waitingAfter s := by
  cases i with
  | awaitKey _ => rfl
  | _ => exact waiting

namespace Machine

variable {R : Machine → Machine → Prop} {m m' : Machine}

/-- Both machines idle, both fail or both execute the same instruction. -/
theorem step_matches (core : m.state.SameCore m'.state)
    (fault : m.state.waiting = none → ∀ i, m.state.instruction? = some i →
      i.fault? m'.state = i.fault? m.state)
    (keypad : Keypad) (related : R m m')
    (executes : ∀ i, m.state.prospect = .executes i →
      R (i.outcome keypad m.advance) (i.outcome keypad m'.advance)) :
    (m.step keypad).Matches R (m'.step keypad) := by
  unfold step isWaiting executeFetched
  rw [core.waiting_eq, core.fetch_eq, core.pc_eq, core.v_eq, core.i_eq]
  cases running : m.state.waiting with
  | some x => exact ⟨rfl, rfl, related⟩
  | none =>
    cases fetched : m.state.fetch with
    | error fault => exact ⟨rfl, rfl, related⟩
    | ok op =>
      simp only [Option.isSome_none, Bool.false_eq_true, if_false, Opcode.execute_eq]
      cases decoded : op.instruction? with
      | none => exact ⟨rfl, rfl, related⟩
      | some i =>
        have ahead : m.state.instruction? = some i := by
          rw [State.instruction?, fetched]
          exact decoded
        dsimp only
        rw [fault running i ahead]
        cases safe : i.fault? m.state with
        | some _ => exact ⟨rfl, rfl, related⟩
        | none =>
          -- what is left to compare are the reports: both await a key, or neither does
          have parked : i.waitingAfter m'.advance.state = i.waitingAfter m.advance.state :=
            i.waitingAfter_congr core.waiting_eq
          refine ⟨rfl, ?_, executes i (State.executes_iff.2 ⟨running, ahead, safe⟩)⟩
          dsimp only [Instruction.outcome]
          rw [parked]

theorem provideKey_matches (waiting : m'.state.waiting = m.state.waiting) (key : UInt8)
    (related : R m m')
    (delivers : ∀ x, m.state.waiting = some x →
      R (m.setState { m.state with v := m.state.v.put x (key % 16), waiting := none })
        (m'.setState { m'.state with v := m'.state.v.put x (key % 16), waiting := none })) :
    (m.provideKey key).Matches R (m'.provideKey key) := by
  unfold provideKey
  rw [waiting]
  cases waits : m.state.waiting with
  | none => exact ⟨rfl, rfl, related⟩
  | some x => exact ⟨rfl, rfl, delivers x waits⟩

theorem load_matches {op : Operation} (load : op.IsLoad) (related : R m m')
    (loads : ∀ program : List UInt8,
      R (m.setState { m.state with
          memory := ⟨Memory.overwrite m.state.memory.bytes programStart program⟩ })
        (m'.setState { m'.state with
          memory := ⟨Memory.overwrite m'.state.memory.bytes programStart program⟩ })) :
    (m.perform op).Matches R (m'.perform op) := by
  have loading (program : List UInt8) :
      (m.loadProgram program).Matches R (m'.loadProgram program) := by
    rw [loadProgram_eq, loadProgram_eq]
    split
    · exact ⟨rfl, rfl, loads program⟩
    · exact ⟨rfl, rfl, related⟩
  obtain ⟨program, rfl⟩ | ⟨⟨program, failure⟩, rfl⟩ := load.eq_load
  · exact (loading program).map Answer.loaded
  · cases failure with
    | none => exact (loading program).map Answer.loaded
    | some message => exact ⟨rfl, rfl, related⟩

theorem performAll_matches_view {β : Type} (view : Answer → β) {allowed : Event → Prop}
    (keeps : ∀ m m' op, R m m' → allowed ⟨m, op⟩ →
      ((m.perform op).map view).Matches R ((m'.perform op).map view))
    (related : R m m') {ops : List Operation} (hops : ∀ e ∈ m.history ops, allowed e) :
    ((m.performAll ops).map (List.map view)).Matches R
      ((m'.performAll ops).map (List.map view)) := by
  induction ops generalizing m m' with
  | nil => exact ⟨rfl, rfl, related⟩
  | cons op rest ih =>
    have first : ((m.perform op).map view).Matches R ((m'.perform op).map view) :=
      keeps m m' op related (hops _ (List.mem_cons_self ..))
    have later := ih first.related fun e h => hops e (List.mem_cons_of_mem _ h)
    exact ⟨congrArg₂ List.cons first.result_eq later.result_eq,
      congrArg₂ List.append first.log_eq later.log_eq, later.related⟩

theorem performAll_matches {allowed : Event → Prop}
    (keeps : ∀ m m' op, R m m' → allowed ⟨m, op⟩ → (m.perform op).Matches R (m'.perform op))
    (related : R m m') {ops : List Operation} (hops : ∀ e ∈ m.history ops, allowed e) :
    (m.performAll ops).Matches R (m'.performAll ops) := by
  have viewed := performAll_matches_view id keeps related hops
  have whole (answers : List Answer) : answers.map id = answers := List.map_id answers
  refine ⟨?_, viewed.log_eq, viewed.related⟩
  have results := viewed.result_eq
  rwa [Turn.map, Turn.map, whole, whole] at results

theorem performAll_concat (m : Machine) (ops : List Operation) (op : Operation) :
    m.performAll (ops ++ [op]) =
      let before := m.performAll ops
      let last := before.machine.perform op
      ⟨before.result ++ [last.result], last.machine, before.log ++ last.log⟩ := by
  induction ops generalizing m with
  | nil => simp [performAll]
  | cons first rest ih =>
    rw [List.cons_append, performAll, performAll, ih]
    simp

theorem matches_concat {ops : List Operation} {op : Operation}
    (before : (m.performAll ops).Matches R (m'.performAll ops))
    (last : ((m.performAll ops).machine.perform op).Matches R
      ((m'.performAll ops).machine.perform op)) :
    (m.performAll (ops ++ [op])).Matches R (m'.performAll (ops ++ [op])) := by
  rw [performAll_concat, performAll_concat]
  dsimp only
  rw [before.result_eq, before.log_eq, last.result_eq, last.log_eq]
  exact ⟨rfl, rfl, last.related⟩

/-- At every point of a run the machines have answered and reported alike and are related. -/
def InLockstep (m : Machine) (R : Machine → Machine → Prop) (m' : Machine)
    (ops : List Operation) : Prop :=
  ∀ n, (m.performAll (ops.take n)).Matches R (m'.performAll (ops.take n))

theorem inLockstep_of_matches {allowed : Event → Prop}
    (keeps : ∀ m m' op, R m m' → allowed ⟨m, op⟩ → (m.perform op).Matches R (m'.perform op))
    (related : R m m') {ops : List Operation} (hops : ∀ e ∈ m.history ops, allowed e) :
    m.InLockstep R m' ops := by
  intro n
  apply performAll_matches keeps related
  intro e mem
  rw [← history_take] at mem
  exact hops e (List.mem_of_mem_take mem)

end Machine

end Chip8
