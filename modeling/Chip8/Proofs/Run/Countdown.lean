import Chip8.Proofs.Run.History

namespace Chip8

inductive Clock where
  | delay
  | sound

namespace Timers

def get (t : Timers) : Clock → UInt8
  | .delay => t.delay
  | .sound => t.sound

theorem get_tick (t : Timers) (c : Clock) : t.tick.1.get c = countDown (t.get c) := by
  cases c with
  | delay | sound => rfl

theorem tick_eq_beep_iff (t : Timers) : t.tick.2 = .beep ↔ t.sound.toNat = 1 := by
  have one : t.sound.toNat = 1 ↔ t.sound = 1 := UInt8.toNat_inj (b := 1)
  rw [one, tick]
  split
  · next last => simp [last]
  · next other => simp [other]

theorem exists_setting_iff {setting : Option UInt8} {p : Nat → Prop} (unset : ¬ p 0) :
    (∃ value, setting = some value ∧ p value.toNat) ↔ p (setting.getD 0).toNat := by
  cases setting with
  | none => simpa using unset
  | some value => simp

end Timers

namespace Instruction

def setting? (s : State) : Clock → Instruction → Option UInt8
  | .delay, setDelay x | .sound, setSound x => some (s.v.value x)
  | _, _ => none

theorem get_timersAfter (i : Instruction) (s : State) (c : Clock) :
    (i.timersAfter s).get c = (i.setting? s c).getD (s.timers.get c) := by
  cases c with
  | delay | sound =>
    cases i with
    | _ => rfl

end Instruction

namespace Event

def isTick (e : Event) : Bool :=
  match e.operation with
  | .tick => true
  | _ => false

def setting? (c : Clock) (e : Event) : Option UInt8 :=
  e.executed?.bind fun i => i.setting? e.before.state c

/-- The event is a step that starts a tone. -/
def arms (e : Event) : Bool := (e.setting? .sound).any (· != 0)

def beeps (e : Event) : Bool :=
  match e.answer with
  | .ticked event => event == .beep
  | _ => false

/-- The events since a timer was set or the machine reset; all of them if neither happened. -/
def sinceSetting (c : Clock) (events : List Event) : List Event :=
  (sinceReset events).rtakeWhile fun e => (e.setting? c).isNone

/-- The value that a timer was set to last since the last reset. -/
def lastSetting? (c : Clock) (events : List Event) : Option UInt8 :=
  last? (setting? c) (sinceReset events)

def ticksSince (c : Clock) (events : List Event) : Nat := (sinceSetting c events).countP isTick

/-- What the history leaves on a timer. -/
def remaining (c : Clock) (events : List Event) : Nat :=
  ((lastSetting? c events).getD 0).toNat - ticksSince c events

theorem isTick_eq_false {m : Machine} {op : Operation} (other : op ≠ .tick) :
    (Event.mk m op).isTick = false := by
  cases op with
  | tick => exact absurd rfl other
  | _ => rfl

theorem beeps_iff (e : Event) :
    e.beeps = true ↔ e.isTick = true ∧ e.before.state.timers.sound.toNat = 1 := by
  obtain ⟨m, op⟩ := e
  cases op with
  | tick =>
    change (m.state.timers.tick.2 == .beep) = true ↔ true = true ∧ m.state.timers.sound.toNat = 1
    rw [beq_iff_eq, Timers.tick_eq_beep_iff]
    exact (and_iff_right rfl).symm
  | _ => simp [beeps, isTick, answer, Machine.perform, Turn.map]

variable (c : Clock) (events : List Event)

theorem sinceSetting_concat (e : Event) :
    sinceSetting c (events ++ [e]) =
      if e.isReset || (e.setting? c).isSome then [] else sinceSetting c events ++ [e] := by
  unfold sinceSetting
  rw [sinceReset_concat]
  cases e.isReset with
  | true => rfl
  | false =>
    simp only [Bool.not_false, if_true, Bool.false_or]
    rw [List.rtakeWhile_concat]
    cases e.setting? c with
    | none => rfl
    | some _ => rfl

theorem lastSetting?_concat (e : Event) :
    lastSetting? c (events ++ [e]) =
      if e.isReset then none else (e.setting? c).or (lastSetting? c events) := by
  unfold lastSetting?
  rw [sinceReset_concat]
  cases e.isReset with
  | true => rfl
  | false => exact last?_concat ..

theorem ticksSince_concat (e : Event) :
    ticksSince c (events ++ [e]) =
      if e.isReset || (e.setting? c).isSome then 0
      else ticksSince c events + if e.isTick then 1 else 0 := by
  rw [ticksSince, sinceSetting_concat]
  split
  · rfl
  · rw [List.countP_append, List.countP_singleton]
    rfl

theorem remaining_concat (e : Event) :
    remaining c (events ++ [e]) =
      if e.isReset then 0
      else match e.setting? c with
        | some value => value.toNat
        | none => remaining c events - if e.isTick then 1 else 0 := by
  rw [remaining, lastSetting?_concat, ticksSince_concat]
  cases e.isReset with
  | true => exact Nat.zero_sub _
  | false =>
    cases e.setting? c with
    | some value => rfl
    | none => exact Nat.sub_add_eq ..

end Event

namespace Move

variable {m after : Machine} {op : Operation}

theorem timers_after (move : Move m op after) (c : Clock) :
    after.state.timers.get c =
      if (Event.mk m op).isReset then 0
      else ((Event.mk m op).setting? c).getD
        (if (Event.mk m op).isTick then Timers.countDown (m.state.timers.get c)
          else m.state.timers.get c) := by
  unfold Event.setting?
  cases move with
  | idles h | fails h =>
    rw [Event.executed?_step, h]
    rfl
  | @executes _ i ready =>
    rw [Event.executed?_step, ready]
    exact i.get_timersAfter m.advance.state c
  | ticks => exact m.state.timers.get_tick c
  | refuses load _ => obtain ⟨_, rfl⟩ | ⟨_, rfl⟩ := load.eq_load <;> rfl
  | loads accepted =>
    obtain ⟨_, rfl⟩ | ⟨_, rfl⟩ := (Operation.isLoad_of_program? accepted).eq_load <;> rfl
  | resets =>
    cases c with
    | delay | sound => rfl
  | ignores _ | delivers _ | shows => rfl

end Move

namespace Machine

theorem soundActive_iff (m : Machine) :
    m.soundActive = true ↔ 0 < m.state.timers.sound.toNat := by
  have zero : m.state.timers.sound.toNat = 0 ↔ m.state.timers.sound = 0 := UInt8.toNat_inj (b := 0)
  rw [soundActive, bne_iff_ne, ne_eq, ← zero, Nat.pos_iff_ne_zero]

theorem timers_eq_remaining (config : Config) (random : RandomSource) (ops : List Operation)
    (c : Clock) :
    (((start config random).performAll ops).machine.state.timers.get c).toNat =
      Event.remaining c ((start config random).history ops) := by
  -- by the last operation, which does to the timer what it does to the summary of the history
  induction ops using List.reverseRecOn with
  | nil =>
    cases c with
    | delay | sound => rfl
  | append_singleton ops op ih =>
    rw [machine_performAll_concat, history_concat, Event.remaining_concat, ← ih,
      (moves_perform _ op).timers_after c]
    generalize ((start config random).performAll ops).machine = m
    split
    · rfl
    · cases (Event.mk m op).setting? c with
      | some value => rfl
      | none =>
        dsimp only [Option.getD_none]
        split
        · exact Timers.toNat_countDown _
        · rfl

/-- The tone that a setting starts has beeped once when its ticks have all happened, and before
that not at all. -/
theorem count_beeps_since_setting (config : Config) (random : RandomSource)
    (ops : List Operation) :
    let events := (start config random).history ops
    let value := ((Event.lastSetting? .sound events).getD 0).toNat
    (Event.sinceSetting .sound events).countP Event.beeps =
      if 1 ≤ value ∧ value ≤ Event.ticksSince .sound events then 1 else 0 := by
  induction ops using List.reverseRecOn with
  | nil => rfl
  | append_singleton ops op ih =>
    have left := timers_eq_remaining config random ops .sound
    dsimp only at ih ⊢
    rw [history_concat, Event.sinceSetting_concat, Event.lastSetting?_concat,
      Event.ticksSince_concat]
    generalize ((start config random).performAll ops).machine = m at *
    generalize (start config random).history ops = events at *
    split
    · -- the event sets the timer or resets, and nothing has happened since
      rw [List.countP_nil, if_neg (by omega)]
    · next quiet =>
      obtain ⟨kept, unset⟩ : (Event.mk m op).isReset = false ∧
          (Event.mk m op).setting? .sound = none := by simpa using quiet
      rw [kept, unset, Option.none_or, if_neg Bool.false_ne_true, List.countP_append,
        List.countP_singleton, ih]
      have beeps := Event.beeps_iff ⟨m, op⟩
      change m.state.timers.sound.toNat = _ - _ at left
      dsimp only at beeps
      rw [left] at beeps
      by_cases tick : (Event.mk m op).isTick = true
      · -- the tick adds a beep exactly if its number is the value set
        rw [tick, eq_self, true_and] at beeps
        rw [tick, if_pos rfl, if_congr beeps rfl rfl]
        split_ifs <;> omega
      · have silent : ¬ (Event.mk m op).beeps = true := fun beep => tick (beeps.1 beep).1
        rw [if_neg tick, if_neg silent]
        rfl

theorem soundActive_of_not_tick {m : Machine} {op : Operation} (other : op ≠ .tick)
    (active : (m.perform op).machine.soundActive = true) :
    m.soundActive = true ∨ (Event.mk m op).arms = true := by
  have moved := (m.moves_perform op).timers_after .sound
  rw [Event.isTick_eq_false other] at moved
  change (m.perform op).machine.state.timers.sound = _ at moved
  unfold soundActive at active
  rw [moved] at active
  unfold soundActive Event.arms
  split at active
  · cases active
  · cases set : (Event.mk m op).setting? .sound with
    | none =>
      rw [set] at active
      exact .inl active
    | some value =>
      rw [set] at active
      exact .inr active

/-- A tone that ends at an event with a beep was going on, and one that goes on behind it was going
on or has been started by it. -/
theorem count_beeps_perform (m : Machine) (op : Operation) :
    (if (Event.mk m op).beeps then 1 else 0) + (if (m.perform op).machine.soundActive then 1 else 0)
      ≤ (if m.soundActive then 1 else 0) + if (Event.mk m op).arms then 1 else 0 := by
  have beeps := Event.beeps_iff ⟨m, op⟩
  -- only a tick ends a tone, and a tick starts none
  by_cases tick : op = .tick
  · subst tick
    have counted : m.tick.machine.state.timers.sound.toNat = m.state.timers.sound.toNat - 1 :=
      Timers.toNat_countDown _
    change (Event.mk m .tick).beeps = true ↔ true = true ∧ m.state.timers.sound.toNat = 1 at beeps
    change _ + (if m.tick.machine.soundActive then 1 else 0) ≤ _
    simp only [beeps, soundActive_iff, counted]
    split_ifs <;> omega
  · have silent : ¬ (Event.mk m op).beeps = true := by
      rw [beeps, Event.isTick_eq_false tick]
      simp
    rw [if_neg silent, Nat.zero_add]
    by_cases active : (m.perform op).machine.soundActive = true
    · rcases soundActive_of_not_tick tick active with before | armed
      · rw [if_pos active, if_pos before]
        exact Nat.le_add_right ..
      · rw [if_pos active, if_pos armed]
        exact Nat.le_add_left ..
    · rw [if_neg active]
      exact Nat.zero_le _

theorem count_beeps_le (m : Machine) (ops : List Operation) :
    (m.history ops).countP Event.beeps +
        (if (m.performAll ops).machine.soundActive then 1 else 0) ≤
      (if m.soundActive then 1 else 0) + (m.history ops).countP Event.arms := by
  induction ops generalizing m with
  | nil => exact Nat.add_comm .. |>.le
  | cons op rest ih =>
    have first := m.count_beeps_perform op
    have later := ih (m.perform op).machine
    change _ + (if ((m.perform op).machine.performAll rest).machine.soundActive then 1 else 0) ≤ _
    rw [history, List.countP_cons, List.countP_cons]
    omega

/-- On every machine that a run from power-on leads to, each timer is the value that it was set to
last since a reset less the ticks since then, down to zero. A tick beeps exactly if it is the one
whose number since the sound timer was set is the value set, and the tone sounds exactly until that
tick. Over the run there were no more beeps than steps that started a tone; since the sound timer
was set there was one if its last tick has happened and none before, so a tone that is cut short or
started anew leaves no beep behind. Nothing but ticks, resets and the two instructions moves a
timer. -/
theorem timers_count_down (config : Config) (random : RandomSource) (past : List Operation) :
    let m := ((start config random).performAll past).machine
    let events := (start config random).history past
    let tone := Event.lastSetting? .sound events
    let ticks := Event.ticksSince .sound events
    (∀ c, (m.state.timers.get c).toNat =
      ((Event.lastSetting? c events).getD 0).toNat - Event.ticksSince c events) ∧
    (m.tick.result = .beep ↔ ∃ value, tone = some value ∧ ticks + 1 = value.toNat) ∧
    (m.soundActive = true ↔ ∃ value, tone = some value ∧ ticks < value.toNat) ∧
    events.countP Event.beeps ≤ events.countP Event.arms ∧
    ((Event.sinceSetting .sound events).countP Event.beeps =
      if 1 ≤ (tone.getD 0).toNat ∧ (tone.getD 0).toNat ≤ ticks then 1 else 0) ∧
    ∀ op, op ≠ .tick → op ≠ .reset → ∀ c,
      (m.perform op).machine.state.timers.get c =
        ((Event.mk m op).setting? c).getD (m.state.timers.get c) := by
  intro m events tone ticks
  have left : ∀ c, (m.state.timers.get c).toNat = Event.remaining c events :=
    timers_eq_remaining config random past
  have sound : m.state.timers.sound.toNat = (tone.getD 0).toNat - ticks := left .sound
  refine ⟨left, ?_, ?_, ?_, count_beeps_since_setting config random past, ?_⟩
  · change m.state.timers.tick.2 = .beep ↔ _
    have unset : ¬ ticks + 1 = 0 := Nat.succ_ne_zero ticks
    rw [Timers.tick_eq_beep_iff, sound, Timers.exists_setting_iff (p := (ticks + 1 = ·)) unset]
    omega
  · have unset : ¬ ticks < 0 := Nat.not_lt_zero ticks
    rw [soundActive_iff, sound, Timers.exists_setting_iff (p := (ticks < ·)) unset]
    omega
  · have balance := count_beeps_le (start config random) past
    have silent : (start config random).soundActive = false := rfl
    rw [silent] at balance
    change events.countP Event.beeps + _ ≤ 0 + events.countP Event.arms at balance
    omega
  · intro op other kept c
    rw [(m.moves_perform op).timers_after c, Event.isReset_eq_false kept,
      Event.isTick_eq_false other]
    rfl

/-- A tone of two ticks is started anew behind its first tick; after one more tick the next word
sets the delay timer. -/
theorem timers_count_down_when_started_anew :
    let random := RandomSource.ofWords fun _ => 0
    let idle : Keypad := fun _ => false
    let past := [.loadProgram [0x61, 0x02, 0xF1, 0x18, 0xF1, 0x18, 0xF1, 0x15], .step idle,
      .step idle, .tick, .step idle, .tick]
    let m := ((start .standard random).performAll past).machine
    let stepped := (m.perform (.step idle)).machine
    (m.state.timers.get .sound).toNat = 2 - 1 ∧ m.tick.result = .beep ∧ m.soundActive = true ∧
      ((start .standard random).history past).countP Event.beeps ≤ 2 ∧
      stepped.state.timers.get .delay = 2 ∧ stepped.state.timers.get .sound = 1 := by
  intro random idle past m stepped
  obtain ⟨tone, ticks, starts⟩ :
      Event.lastSetting? .sound ((start .standard random).history past) = some 2 ∧
        Event.ticksSince .sound ((start .standard random).history past) = 1 ∧
          ((start .standard random).history past).countP Event.arms = 2 := by
    decide +kernel
  obtain ⟨delay, sound, now⟩ : (Event.mk m (.step idle)).setting? .delay = some 2 ∧
      (Event.mk m (.step idle)).setting? .sound = none ∧ m.state.timers.get .sound = 1 := by
    decide +kernel
  obtain ⟨left, beeps, sounds, few, -, keeps⟩ := timers_count_down .standard random past
  have other : Operation.step idle ≠ .tick ∧ Operation.step idle ≠ .reset := by simp
  have value := left .sound
  rw [tone, ticks] at value
  have set := keeps (.step idle) other.1 other.2 .delay
  have kept := keeps (.step idle) other.1 other.2 .sound
  rw [delay] at set
  rw [sound, now] at kept
  exact ⟨value, beeps.2 ⟨2, tone, by rw [ticks]; rfl⟩, sounds.2 ⟨2, tone, by rw [ticks]; decide⟩,
    few.trans starts.le, set, kept⟩

end Machine

end Chip8
