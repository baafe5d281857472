import Mathlib.Data.List.Forall2
import Chip8.Proofs.Run.History

namespace Chip8

inductive KeyEvent where
  | press (key : UInt8)
  | release (key : UInt8)
  | releaseAll
  deriving DecidableEq, Repr

namespace KeyEvent

/-- The event presses or releases the key of a number, of which the low nibble counts. -/
def concerns (q : UInt8) : KeyEvent → Bool
  | press key | release key => key.toNat % 16 = q.toNat % 16
  | releaseAll => true

def isPress : KeyEvent → Bool
  | press _ => true
  | _ => false

end KeyEvent

namespace Keys

def apply (k : Keys) : KeyEvent → Keys
  | .press key => k.press key
  | .release key => k.release key
  | .releaseAll => k.releaseAll

def after (history : List KeyEvent) : Keys := history.foldl apply none

theorem after_concat (history : List KeyEvent) (e : KeyEvent) :
    after (history ++ [e]) = (after history).apply e :=
  List.foldl_concat ..

theorem keypad_apply (k : Keys) (e : KeyEvent) (q : UInt8) :
    (k.apply e).keypad q = if e.concerns q then e.isPress else k.keypad q := by
  cases e with
  | press key | release key =>
    simp only [apply, press, release, keypad_set, KeyEvent.concerns, decide_eq_true_eq,
      KeyEvent.isPress]
  | releaseAll => exact keypad_none q

/-- A key is down if the last event that concerns it is a press. -/
theorem keypad_after (history : List KeyEvent) (q : UInt8) :
    (after history).keypad q =
      (history.filter (·.concerns q)).getLast?.any KeyEvent.isPress := by
  -- by the last event, which decides if it concerns the key
  induction history using List.reverseRecOn with
  | nil => exact keypad_none q
  | append_singleton history e ih =>
    rw [after_concat, keypad_apply, List.filter_append, List.filter_singleton]
    cases e.concerns q with
    | true => simp
    | false => simpa using ih

theorem eq_none_iff {k : Keys} : k = none ↔ ∀ q, k.keypad q = false := by
  constructor
  · rintro rfl q
    exact keypad_none q
  · intro up
    cases k with | mk held =>
    rw [none, mk.injEq]
    apply Vector.ext
    intro key hkey
    have number : (UInt8.ofNat key).toNat % 16 = key := by
      rw [UInt8.toNat_ofNat']
      omega
    have here := up (UInt8.ofNat key)
    simp only [keypad, Keypad.ofVector, Fin.getElem_fin, number] at here
    rw [here, Vector.getElem_replicate]

end Keys

/-- The same operation, with a keypad that gives the same answers for the sixteen keys. -/
inductive Operation.SameKeys : Operation → Operation → Prop where
  | step {keypad keypad' : Keypad} (same : ∀ q < 16, keypad' q = keypad q) :
    SameKeys (.step keypad) (.step keypad')
  | refl (op : Operation) : SameKeys op op

namespace Instruction

/-- The key that the instruction asks for, if it asks for one. -/
def askedKey? (s : State) : Instruction → Option UInt8
  | skipKeyDown x | skipKeyUp x => some (s.v.value x % 16)
  | _ => none

variable {i : Instruction} {keypad keypad' : Keypad}

theorem askedKey?_lt {s : State} {q : UInt8} (asked : i.askedKey? s = some q) :
    q < 16 := by
  cases i with
  | skipKeyDown x | skipKeyUp x =>
    obtain rfl := Option.some.inj asked
    exact UInt8.mod_lt _ (by decide)
  | _ => cases asked

theorem skips_congr_keypad {s : State}
    (same : ∀ q, i.askedKey? s = some q → keypad' q = keypad q) :
    i.skips keypad' s = i.skips keypad s := by
  cases i with
  | skipKeyDown x => exact same _ rfl
  | skipKeyUp x => exact congrArg not (same _ rfl)
  | _ => rfl

theorem outcome_congr_keypad {m : Machine}
    (same : ∀ q, i.askedKey? m.state = some q → keypad' q = keypad q) :
    i.outcome keypad' m = i.outcome keypad m := by
  have skips : i.skips keypad' m.state = i.skips keypad m.state := skips_congr_keypad same
  have pc : i.pcAfter keypad' m = i.pcAfter keypad m := by
    cases i with
    | ret | jump _ | call _ | jumpOffset _ => rfl
    | _ => exact congrArg (fun skip : Bool => if skip then m.state.pc + 2 else m.state.pc) skips
  rw [outcome, pc]
  rfl

end Instruction

namespace Machine

variable {m : Machine} {keypad keypad' : Keypad}

theorem execute_congr_keypad {op : Opcode}
    (same : ∀ i, op.instruction? = some i → i.fault? m.state = none →
      ∀ q, i.askedKey? m.state = some q → keypad' q = keypad q) :
    op.execute keypad' m = op.execute keypad m := by
  rw [Opcode.execute_eq, Opcode.execute_eq]
  cases decoded : op.instruction? with
  | none => rfl
  | some i =>
    dsimp only
    cases safe : i.fault? m.state with
    | some fault => rfl
    | none =>
      have outcome : i.outcome keypad' m.advance = i.outcome keypad m.advance :=
        Instruction.outcome_congr_keypad (same i decoded safe)
      rw [outcome]

/-- Keypads that agree on the key that is asked for make the same step. -/
theorem step_congr_keypad
    (same : ∀ i, m.executed? keypad = some i →
      ∀ q, i.askedKey? m.state = some q → keypad' q = keypad q) :
    m.step keypad' = m.step keypad := by
  unfold step isWaiting executeFetched
  cases running : m.state.waiting with
  | some x => rfl
  | none =>
    cases fetched : m.state.fetch with
    | error fault => rfl
    | ok op =>
      have executed : op.execute keypad' m = op.execute keypad m := by
        apply execute_congr_keypad
        intro i decoded safe
        have ahead : m.state.instruction? = some i := by
          rw [State.instruction?, fetched]
          exact decoded
        exact same i (executed?_eq_some_iff.2 (State.executes_iff.2 ⟨running, ahead, safe⟩))
      dsimp only
      rw [executed]

theorem perform_of_sameKeys {op op' : Operation} (same : op.SameKeys op') (m : Machine) :
    m.perform op' = m.perform op := by
  cases same with
  | refl => rfl
  | @step keypad keypad' agree =>
    have step : m.step keypad' = m.step keypad :=
      step_congr_keypad fun i _ q asked => agree q (Instruction.askedKey?_lt asked)
    rw [perform, perform, step]

theorem performAll_of_sameKeys {ops ops' : List Operation}
    (same : List.Forall₂ Operation.SameKeys ops ops') (m : Machine) :
    m.performAll ops' = m.performAll ops := by
  induction same generalizing m with
  | nil => rfl
  | cons first _ ih => rw [performAll, performAll, perform_of_sameKeys first, ih]

/-- Keys that are pressed and released, one by one or all at once, are down if the last event that
concerns them is a press, and they are as new if none is down. Keypads that agree on the sixteen
keys can take each other's place in every step of a run. A step asks only if it executes one of the
two skips on a key, and only for the key in the low nibble of the register. -/
theorem keypads_matter_by_the_asked_key :
    (∀ (history : List KeyEvent) (q : UInt8),
      (Keys.after history).keypad q = true ↔
        ∃ e, (history.filter (·.concerns q)).getLast? = some e ∧ e.isPress = true) ∧
    (∀ k : Keys, k = .none ↔ ∀ q, k.keypad q = false) ∧
    (∀ (m : Machine) (ops ops' : List Operation), List.Forall₂ Operation.SameKeys ops ops' →
      m.performAll ops' = m.performAll ops) ∧
    ∀ (m : Machine) (keypad keypad' : Keypad),
      (∀ x, m.executed? keypad = some (.skipKeyDown x) ∨
          m.executed? keypad = some (.skipKeyUp x) →
        keypad' (m.state.v.value x % 16) = keypad (m.state.v.value x % 16)) →
      m.step keypad' = m.step keypad := by
  refine ⟨?_, fun k => Keys.eq_none_iff, ?_, ?_⟩
  · intro history q
    rw [Keys.keypad_after, Option.any_eq_true]
  · exact fun m ops ops' same => performAll_of_sameKeys same m
  · intro m keypad keypad' agree
    apply step_congr_keypad
    intro i executed q asked
    cases i with
    | skipKeyDown x =>
      obtain rfl := Option.some.inj asked
      exact agree x (.inl executed)
    | skipKeyUp x =>
      obtain rfl := Option.some.inj asked
      exact agree x (.inr executed)
    | _ => cases asked

/-- Key 0xE is held, told apart from key 5 by the skip on V1 = 0x1E alone; and a keypad that knows
no numbers above 0xF. -/
theorem keypads_matter_by_the_asked_key_above_F :
    let keys := Keys.after [.press 0x1E, .press 3, .release 0x13]
    let narrow : Keypad := fun q => q < 16 && keys.keypad q
    let both := Keypad.ofVector (Vector.ofFn fun q => q.val == 0xE || q.val == 5)
    let loading := .loadProgram [0x61, 0x1E, 0xE1, 0x9E]
    let start := Machine.start .standard (.ofWords fun _ => 0)
    let m := (start.performAll [loading, .step keys.keypad]).machine
    keys.keypad 0x2E = true ∧ keys ≠ .none ∧
      start.performAll [loading, .step narrow, .tick] =
        start.performAll [loading, .step keys.keypad, .tick] ∧
      m.executed? keys.keypad = some (.skipKeyDown 1) ∧
      both 5 ≠ keys.keypad 5 ∧ m.step both = m.step keys.keypad := by
  intro keys narrow both loading start m
  obtain ⟨last, untouched, runs, steps⟩ := keypads_matter_by_the_asked_key
  have down : keys.keypad 0x2E = true := (last _ 0x2E).2 ⟨.press 0x1E, by decide, rfl⟩
  have used : keys ≠ .none := by
    intro new
    rw [(untouched keys).1 new 0x2E] at down
    cases down
  have agree : ∀ q < 16, narrow q = keys.keypad q := by
    intro q hq
    simp [narrow, hq]
  obtain ⟨executed, value, apart, same⟩ : m.executed? keys.keypad = some (.skipKeyDown 1) ∧
      m.state.v.value 1 = 0x1E ∧ both 5 ≠ keys.keypad 5 ∧ both 0xE = keys.keypad 0xE := by
    decide +kernel
  refine ⟨down, used, ?_, executed, apart, ?_⟩
  · exact runs start _ _ (.cons (.refl _) (.cons (.step agree) (.cons (.refl _) .nil)))
  · apply steps
    intro x asked
    rw [executed] at asked
    obtain rfl : x = 1 := by
      rcases asked with this | this
      · cases this
        rfl
      · cases this
    rw [value]
    exact same

end Machine

end Chip8
