import Chip8.Proofs.Run.LastWrite
import Chip8.Proofs.Text.Lines

namespace Chip8

/-- What a machine needs of a logging facility that is set to some maximum level. -/
structure Logger where
  /-- Whether a record of the level is written down if it is handed over. -/
  writes : Level → Bool
  /-- The answer to the question whether records of the level are to be made at all. -/
  enabled : Level → Bool

namespace Logger

def write (logger : Logger) (r : Record) : List Line :=
  if logger.writes r.level then [r.line] else []

theorem flatMap_write (logger : Logger) (log : List Record) :
    log.flatMap logger.write =
      (log.map Record.line).filter fun line => logger.writes line.level := by
  induction log with
  | nil => rfl
  | cons r rest ih =>
    rw [List.flatMap_cons, ih, List.map_cons, List.filter_cons, write]
    change _ = if logger.writes r.level then _ else _
    split <;> rfl

theorem flatMap_write_of_writes {logger : Logger} (writes : ∀ level, logger.writes level = true)
    (log : List Record) : log.flatMap logger.write = log.map Record.line := by
  rw [flatMap_write, List.filter_eq_self]
  exact fun line _ => writes line.level

end Logger

structure Reading (α : Type) where
  result : α
  machine : Machine
  lines : List Line

def Reading.map {α β : Type} (f : α → β) (r : Reading α) : Reading β :=
  ⟨f r.result, r.machine, r.lines⟩

def Turn.readBy {α : Type} (logger : Logger) (t : Turn α) : Reading α :=
  ⟨t.result, t.machine, t.log.flatMap logger.write⟩

namespace Machine

/-- A step that hands its records over as it goes along. That of the trace, whose text is costly, is
made only if the facility asks for it. -/
def stepBy (logger : Logger) (m : Machine) (keypad : Keypad) : Reading (Except Fault Effect) :=
  if m.isWaiting then ⟨.ok .none, m, []⟩
  else match m.state.fetch with
    | .error fault => ⟨.error fault, m, logger.write (.fetchFailed m.state.pc fault)⟩
    | .ok op =>
      let traced :=
        if logger.enabled .trace then logger.write (.executing m.state.pc op m.state.v m.state.i)
        else []
      match op.execute keypad m with
      | .error fault after =>
        ⟨.error fault, after, traced ++ logger.write (.failed op m.state.pc fault)⟩
      | .ok effect after =>
        match after.state.waiting with
        | some x => ⟨.ok effect, after, traced ++ logger.write (.awaitingKey x)⟩
        | none => ⟨.ok effect, after, traced⟩

def provideKeyBy (logger : Logger) (m : Machine) (key : UInt8) : Reading Bool :=
  match m.state.waiting with
  | none => ⟨false, m, []⟩
  | some x =>
    let key := key % 16
    let registers := (m.state.v.set? x key).getD m.state.v
    ⟨true, m.setState { m.state with v := registers, waiting := none },
      logger.write (.receivedKey x key)⟩

def loadProgramBy (logger : Logger) (m : Machine) (program : List UInt8) :
    Reading (Except Fault Unit) :=
  if programCapacity < program.length then
    ⟨.error (.programTooLarge program.length programCapacity), m, []⟩
  else match m.state.memory.load programStart program with
    | .error fault => ⟨.error fault, m, []⟩
    | .ok memory =>
      ⟨.ok (), m.setState { m.state with memory := memory }, logger.write (.loaded program.length)⟩

def loadFromBy (logger : Logger) (m : Machine) (reader : Reader) : Reading (Except Fault Unit) :=
  match reader.failure with
  | some message => ⟨.error (.unreadable message), m, []⟩
  | none => m.loadProgramBy logger reader.bytes

def resetBy (logger : Logger) (m : Machine) : Reading Unit :=
  ⟨(), m.setState (.initial m.config.stackDepth), logger.write .resetting⟩

def performBy (logger : Logger) (m : Machine) : Operation → Reading Answer
  | .step keypad => (m.stepBy logger keypad).map .stepped
  | .provideKey key => (m.provideKeyBy logger key).map .delivered
  | .tick => ⟨.ticked m.tick.result, m.tick.machine, []⟩
  | .loadProgram program => (m.loadProgramBy logger program).map .loaded
  | .loadFrom reader => (m.loadFromBy logger reader).map .loaded
  | .reset => (m.resetBy logger).map fun _ => .wasReset
  | .takeFrame => ⟨.frame m.takeFrame.result, m.takeFrame.machine, []⟩

def performAllBy (logger : Logger) (m : Machine) : List Operation → Reading (List Answer)
  | [] => ⟨[], m, []⟩
  | op :: rest =>
    let first := m.performBy logger op
    let later := first.machine.performAllBy logger rest
    ⟨first.result :: later.result, later.machine, first.lines ++ later.lines⟩

theorem takeFrame_log (m : Machine) : m.takeFrame.log = [] := by
  rw [takeFrame_eq]

theorem provideKeyBy_eq (logger : Logger) (m : Machine) (key : UInt8) :
    m.provideKeyBy logger key = (m.provideKey key).readBy logger := by
  unfold provideKeyBy provideKey
  cases m.state.waiting <;> simp [Turn.readBy]

theorem loadProgramBy_eq (logger : Logger) (m : Machine) (program : List UInt8) :
    m.loadProgramBy logger program = (m.loadProgram program).readBy logger := by
  unfold loadProgramBy loadProgram
  split
  · rfl
  · cases m.state.memory.load programStart program <;> simp [Turn.readBy]

theorem loadFromBy_eq (logger : Logger) (m : Machine) (reader : Reader) :
    m.loadFromBy logger reader = (m.loadFrom reader).readBy logger := by
  unfold loadFromBy loadFrom
  cases reader.failure with
  | some message => rfl
  | none => exact loadProgramBy_eq logger m reader.bytes

section Erasure

variable {logger : Logger}
  (enabled_of_writes : ∀ level, logger.writes level = true → logger.enabled level = true)

include enabled_of_writes

theorem write_of_enabled (m : Machine) (op : Opcode) :
    (if logger.enabled .trace then logger.write (.executing m.state.pc op m.state.v m.state.i)
      else []) = logger.write (.executing m.state.pc op m.state.v m.state.i) := by
  cases asked : logger.enabled .trace with
  | true => rfl
  | false =>
    -- what is not asked for would not have been written down either
    have dropped : logger.writes .trace ≠ true := by
      intro writes
      rw [enabled_of_writes .trace writes] at asked
      cases asked
    exact (if_neg dropped).symm

theorem stepBy_eq (m : Machine) (keypad : Keypad) :
    m.stepBy logger keypad = (m.step keypad).readBy logger := by
  unfold stepBy step executeFetched
  cases m.isWaiting with
  | true => rfl
  | false =>
    simp only [Bool.false_eq_true, if_false]
    cases m.state.fetch with
    | error fault => simp [Turn.readBy]
    | ok op =>
      dsimp only
      rw [write_of_enabled enabled_of_writes]
      cases op.execute keypad m with
      | error fault after => simp [Turn.readBy]
      | ok effect after =>
        dsimp only
        cases after.state.waiting <;> simp [Turn.readBy]

theorem performBy_eq (m : Machine) (op : Operation) :
    m.performBy logger op = (m.perform op).readBy logger := by
  cases op with
  | step keypad =>
    exact congrArg (Reading.map Answer.stepped) (stepBy_eq enabled_of_writes m keypad)
  | provideKey key => exact congrArg (Reading.map Answer.delivered) (provideKeyBy_eq logger m key)
  | loadProgram program =>
    exact congrArg (Reading.map Answer.loaded) (loadProgramBy_eq logger m program)
  | loadFrom reader => exact congrArg (Reading.map Answer.loaded) (loadFromBy_eq logger m reader)
  | tick => rfl
  | reset => simp [performBy, resetBy, perform, reset, Turn.map, Turn.readBy, Reading.map]
  | takeFrame => simp [performBy, perform, Turn.map, Turn.readBy, takeFrame_log]

theorem performAllBy_eq (m : Machine) (ops : List Operation) :
    m.performAllBy logger ops = (m.performAll ops).readBy logger := by
  induction ops generalizing m with
  | nil => rfl
  | cons op rest ih =>
    rw [performAllBy, performBy_eq enabled_of_writes, ih, performAll]
    simp [Turn.readBy]

end Erasure

end Machine

namespace Event

def stepFails (e : Event) : Bool :=
  match e.answer with
  | .stepped (.error _) => true
  | _ => false

theorem stepFails_step (m : Machine) (keypad : Keypad) :
    (Event.mk m (.step keypad)).stepFails = (m.step keypad).result.toOption.isNone := by
  change (match Answer.stepped (m.step keypad).result with
    | .stepped (.error _) => true
    | _ => false) = _
  cases (m.step keypad).result <;> rfl

theorem stepFails_of_isLoad {m : Machine} {op : Operation} (load : op.IsLoad) :
    (Event.mk m op).stepFails = false := by
  obtain ⟨_, rfl⟩ | ⟨_, rfl⟩ := load.eq_load <;> rfl

end Event

/-- The lines that there are to read of an operation, told by what the operation comes to. -/
inductive Reports (m : Machine) : Operation → List Line → Prop where
  | idles {keypad : Keypad} (waiting : m.isWaiting = true) : Reports m (.step keypad) []
  | fetchFails {keypad : Keypad} {fault : Fault} (running : m.isWaiting = false)
    (unfetched : m.state.fetch = .error fault) :
    Reports m (.step keypad)
      [⟨.warn, "fetch at 0x" ++ hexadecimal 3 m.state.pc.toNat ++ " failed: " ++ fault.wording⟩]
  | fails {keypad : Keypad} {op : Opcode} {fault : Fault} (running : m.isWaiting = false)
    (fetched : m.state.fetch = .ok op) (failed : (m.step keypad).result = .error fault) :
    Reports m (.step keypad)
      [m.traceLine op, ⟨.warn, hexadecimal 4 op.word.toNat ++ " at 0x" ++
        hexadecimal 3 m.state.pc.toNat ++ " failed: " ++ fault.wording⟩]
  | awaits {keypad : Keypad} {op : Opcode} {x : UInt8} (fetched : m.state.fetch = .ok op)
    (executed : m.executed? keypad = some (.awaitKey x)) :
    Reports m (.step keypad)
      [m.traceLine op, ⟨.debug, "V" ++ hexadecimal 0 x.toNat ++ " waiting for a key"⟩]
  | executes {keypad : Keypad} {op : Opcode} {i : Instruction} (fetched : m.state.fetch = .ok op)
    (executed : m.executed? keypad = some i) (other : ∀ x, i ≠ .awaitKey x) :
    Reports m (.step keypad) [m.traceLine op]
  | delivers {key x : UInt8} (waiting : m.state.waiting = some x)
    (accepted : (m.provideKey key).result = true) :
    Reports m (.provideKey key) [⟨.debug, "V" ++ hexadecimal 0 x.toNat ++ " = key " ++
      hexadecimal 0 (key.toNat % 16)⟩]
  | ignores {key : UInt8} (refused : (m.provideKey key).result = false) :
    Reports m (.provideKey key) []
  | loads {op : Operation} {program : List UInt8}
    (loaded : (Event.mk m op).loaded? = some program) :
    Reports m op [⟨.debug, "loaded " ++ toString program.length ++ " byte program"⟩]
  | refuses {op : Operation} (load : op.IsLoad) (refused : (Event.mk m op).loaded? = none) :
    Reports m op []
  | resets : Reports m .reset [⟨.debug, "resetting"⟩]
  | ticks : Reports m .tick []
  | shows : Reports m .takeFrame []

theorem Instruction.waitingAfter_of_ne_awaitKey {i : Instruction} (other : ∀ x, i ≠ .awaitKey x)
    (s : State) : i.waitingAfter s = s.waiting := by
  cases i with
  | awaitKey x => exact absurd rfl (other x)
  | _ => rfl

namespace Machine

variable {m : Machine} {keypad : Keypad} {op : Opcode}

theorem step_of_unfetched {fault : Fault} (running : m.isWaiting = false)
    (unfetched : m.state.fetch = .error fault) (keypad : Keypad) :
    m.step keypad = ⟨.error fault, m, [.fetchFailed m.state.pc fault]⟩ := by
  rw [step, running, unfetched]
  rfl

theorem log_step_of_fetched (running : m.isWaiting = false) (fetched : m.state.fetch = .ok op)
    (keypad : Keypad) :
    (m.step keypad).log =
      .executing m.state.pc op m.state.v m.state.i ::
        match (m.step keypad).result with
        | .error fault => [.failed op m.state.pc fault]
        | .ok _ => ((m.step keypad).machine.state.waiting.map Record.awaitingKey).toList := by
  have step : m.step keypad = m.executeFetched keypad op := by
    rw [Machine.step, running, fetched]
    rfl
  rw [step, executeFetched]
  cases op.execute keypad m <;> rfl

theorem log_step_of_executed {i : Instruction} (fetched : m.state.fetch = .ok op)
    (executed : m.executed? keypad = some i) :
    (m.step keypad).log =
      .executing m.state.pc op m.state.v m.state.i ::
        ((i.waitingAfter m.state.advance).map Record.awaitingKey).toList := by
  have ready := executed?_eq_some_iff.1 executed
  have running : m.isWaiting = false := by
    rw [isWaiting, (State.executes_iff.1 ready).1]
    rfl
  obtain ⟨result, machine⟩ := step_of_executes ready keypad
  rw [log_step_of_fetched running fetched, result, machine]
  rfl

theorem log_provideKey (m : Machine) (key : UInt8) :
    (m.provideKey key).log = (m.state.waiting.map fun x => .receivedKey x (key % 16)).toList ∧
      (m.provideKey key).result = m.state.waiting.isSome := by
  unfold provideKey
  cases m.state.waiting <;> exact ⟨rfl, rfl⟩

theorem log_of_isLoad {op : Operation} (load : op.IsLoad) :
    (m.perform op).log = (op.program?.map fun program => Record.loaded program.length).toList := by
  have loading (program : List UInt8) : (m.loadProgram program).log =
      ((Operation.loadProgram program).program?.map fun p => Record.loaded p.length).toList := by
    rw [loadProgram_eq, Operation.program?]
    split <;> rfl
  obtain ⟨program, rfl⟩ | ⟨⟨program, failure⟩, rfl⟩ := load.eq_load
  · exact loading program
  · cases failure with
    | none => exact loading program
    | some message => rfl

end Machine

namespace Reports

variable {m : Machine} {op : Operation} {lines : List Line}

theorem lines_eq (reports : Reports m op lines) :
    lines = (m.perform op).log.map Record.line := by
  cases reports with
  | @idles keypad waiting =>
    change [] = (m.step keypad).log.map Record.line
    rw [Machine.step, waiting]
    rfl
  | @fetchFails keypad fault running unfetched =>
    change _ = (m.step keypad).log.map Record.line
    rw [Machine.step_of_unfetched running unfetched, List.map_singleton, Record.line_fetchFailed]
  | @fails keypad op fault running fetched failed =>
    change _ = (m.step keypad).log.map Record.line
    rw [Machine.log_step_of_fetched running fetched, failed]
    simp only [List.map_cons, List.map_nil, Record.line_executing, Record.line_failed]
  | @awaits keypad op x fetched executed =>
    change _ = (m.step keypad).log.map Record.line
    rw [Machine.log_step_of_executed fetched executed, List.map_cons, Record.line_executing,
      ← Record.line_awaitingKey]
    rfl
  | @executes keypad op i fetched executed other =>
    have running : m.state.waiting = none :=
      (State.executes_iff.1 (Machine.executed?_eq_some_iff.1 executed)).1
    change _ = (m.step keypad).log.map Record.line
    rw [Machine.log_step_of_executed fetched executed, List.map_cons, Record.line_executing,
      Instruction.waitingAfter_of_ne_awaitKey other, State.advance, running]
    rfl
  | @delivers key x waiting accepted =>
    have low : (key % 16).toNat = key.toNat % 16 := rfl
    change _ = (m.provideKey key).log.map Record.line
    rw [(m.log_provideKey key).1, waiting, ← low, ← Record.line_receivedKey]
    rfl
  | @ignores key refused =>
    rw [(m.log_provideKey key).2, Option.isSome_eq_false_iff, Option.isNone_iff_eq_none] at refused
    change _ = (m.provideKey key).log.map Record.line
    rw [(m.log_provideKey key).1, refused]
    rfl
  | loads loaded =>
    rw [Event.loaded?_eq] at loaded
    change op.program? = _ at loaded
    rw [Machine.log_of_isLoad (Operation.isLoad_of_program? loaded), loaded]
    rfl
  | refuses load refused =>
    rw [Event.loaded?_eq] at refused
    change op.program? = _ at refused
    rw [Machine.log_of_isLoad load, refused]
    rfl
  | resets | ticks => rfl
  | shows =>
    change [] = m.takeFrame.log.map Record.line
    rw [Machine.takeFrame_log]
    rfl

theorem exists_of_step (m : Machine) (keypad : Keypad) :
    ∃ lines, Reports m (.step keypad) lines := by
  cases prospect : m.state.prospect with
  | idle =>
    obtain ⟨x, waiting⟩ := State.waiting_of_idle prospect
    exact ⟨_, .idles (by rw [Machine.isWaiting, waiting]; rfl)⟩
  | fails fault =>
    have running : m.isWaiting = false := by
      rw [Machine.isWaiting, State.waiting_of_fails prospect]
      rfl
    -- only a word that has been fetched is traced
    cases fetched : m.state.fetch with
    | error fault => exact ⟨_, .fetchFails running fetched⟩
    | ok op => exact ⟨_, .fails running fetched (Machine.step_of_fails prospect keypad).1⟩
  | executes i =>
    have executed : m.executed? keypad = some i := Machine.executed?_eq_some_iff.2 prospect
    obtain ⟨-, ahead, -⟩ := State.executes_iff.1 prospect
    cases fetched : m.state.fetch with
    | error fault => simp [State.instruction?, fetched] at ahead
    | ok op =>
      by_cases awaited : ∃ x, i = .awaitKey x
      · obtain ⟨x, rfl⟩ := awaited
        exact ⟨_, .awaits fetched executed⟩
      · exact ⟨_, .executes fetched executed (not_exists.1 awaited)⟩

theorem exists_of_isLoad (m : Machine) (load : op.IsLoad) : ∃ lines, Reports m op lines := by
  cases loaded : (Event.mk m op).loaded? with
  | some program => exact ⟨_, .loads loaded⟩
  | none => exact ⟨_, .refuses load loaded⟩

theorem exists_lines (m : Machine) (op : Operation) : ∃ lines, Reports m op lines := by
  cases op with
  | step keypad => exact exists_of_step m keypad
  | provideKey key =>
    cases waiting : m.state.waiting with
    | some x => exact ⟨_, .delivers waiting (by rw [(m.log_provideKey key).2, waiting]; rfl)⟩
    | none => exact ⟨_, .ignores (by rw [(m.log_provideKey key).2, waiting]; rfl)⟩
  | loadProgram _ | loadFrom _ => exact exists_of_isLoad m trivial
  | reset => exact ⟨_, .resets⟩
  | tick => exact ⟨_, .ticks⟩
  | takeFrame => exact ⟨_, .shows⟩

theorem iff_lines_eq : Reports m op lines ↔ (m.perform op).log.map Record.line = lines := by
  constructor
  · exact fun reports => reports.lines_eq.symm
  · rintro rfl
    obtain ⟨lines, reports⟩ := exists_lines m op
    exact reports.lines_eq ▸ reports

theorem countP_warn (reports : Reports m op lines) :
    lines.countP (·.level = .warn) = if (Event.mk m op).stepFails then 1 else 0 := by
  cases reports with
  | @idles keypad waiting =>
    rw [Event.stepFails_step, Machine.step, waiting]
    rfl
  | @fetchFails keypad _ running unfetched =>
    rw [Event.stepFails_step, Machine.step_of_unfetched running unfetched]
    rfl
  | @fails keypad _ _ _ _ failed =>
    rw [Event.stepFails_step, failed]
    rfl
  | @awaits keypad _ _ _ executed | @executes keypad _ _ _ executed _ =>
    have ready := Machine.executed?_eq_some_iff.1 executed
    rw [Event.stepFails_step, (Machine.step_of_executes ready keypad).1]
    rfl
  | loads loaded =>
    rw [Event.loaded?_eq] at loaded
    rw [Event.stepFails_of_isLoad (Operation.isLoad_of_program? loaded)]
    rfl
  | refuses load _ =>
    rw [Event.stepFails_of_isLoad load]
    rfl
  | delivers _ _ | ignores _ | resets | ticks | shows => rfl

end Reports

namespace Machine

theorem countP_warn (m : Machine) (ops : List Operation) :
    ((m.performAll ops).log.map Record.line).countP (·.level = .warn) =
      (m.history ops).countP Event.stepFails := by
  induction ops generalizing m with
  | nil => rfl
  | cons op rest ih =>
    have first : Reports m op ((m.perform op).log.map Record.line) := Reports.iff_lines_eq.2 rfl
    rw [performAll, history, List.map_append, List.countP_append, List.countP_cons,
      first.countP_warn, ih, Nat.add_comm]

/-- All that is known of a logging facility is that at every maximum level it asks for the records
that it writes down, and that at the level of the trace it writes all of them down. Then logging
changes nothing: whatever the maximum level, a run has the same answers and comes to the same
machine, its random source included, and what is written are those lines of the full log that have a
level which is written. The full log of an operation tells what the operation came to, and no more,
so that over a run there are as many warnings as steps that failed. -/
theorem logging_only_observes {Max : Type} (logger : Max → Logger) (trace : Max)
    (enabled_of_writes : ∀ max level,
      (logger max).writes level = true → (logger max).enabled level = true)
    (trace_writes : ∀ level, (logger trace).writes level = true) :
    (∀ (max : Max) (m : Machine) (ops : List Operation),
      let reading := m.performAllBy (logger max) ops
      reading.result = (m.performAll ops).result ∧
      reading.machine = (m.performAll ops).machine ∧
      reading.lines =
        (m.performAllBy (logger trace) ops).lines.filter fun line =>
          (logger max).writes line.level) ∧
    (∀ (max : Max) (m : Machine) (ops : List Operation),
      (visible (logger max).writes (m.performAll ops).log).map Record.line =
        (m.performAllBy (logger max) ops).lines) ∧
    (∀ (m : Machine) (op : Operation) (lines : List Line),
      Reports m op lines ↔ (m.performBy (logger trace) op).lines = lines) ∧
    ∀ (m : Machine) (ops : List Operation),
      (m.performAllBy (logger trace) ops).lines.countP (·.level = .warn) =
        (m.history ops).countP Event.stepFails := by
  have full (m : Machine) (ops : List Operation) :
      (m.performAllBy (logger trace) ops).lines = (m.performAll ops).log.map Record.line := by
    rw [performAllBy_eq (enabled_of_writes trace)]
    exact Logger.flatMap_write_of_writes trace_writes _
  refine ⟨?observes, ?visible, ?reports, ?warnings⟩
  case observes =>
    intro max m ops reading
    have same : reading = (m.performAll ops).readBy (logger max) :=
      performAllBy_eq (enabled_of_writes max) m ops
    refine ⟨congrArg Reading.result same, congrArg Reading.machine same, ?_⟩
    rw [same, full]
    exact (logger max).flatMap_write _
  case visible =>
    intro max m ops
    rw [performAllBy_eq (enabled_of_writes max), Turn.readBy, Logger.flatMap_write,
      List.filter_map]
    rfl
  case reports =>
    intro m op lines
    rw [Reports.iff_lines_eq, performBy_eq (enabled_of_writes trace), Turn.readBy,
      Logger.flatMap_write_of_writes trace_writes]
  case warnings =>
    intro m ops
    rw [full, countP_warn]

/-- With maximum levels from nothing (0) to the trace (5), of which 3 is between warnings and
records for debugging: a return without a call, behind a wait for a key. -/
theorem logging_only_observes_by_number :
    let number : Level → Nat
      | .warn => 2
      | .debug => 4
      | .trace => 5
    let logger (max : Nat) : Logger :=
      ⟨fun level => number level ≤ max, fun level => number level ≤ max⟩
    let idle : Keypad := fun _ => false
    let past := [.loadProgram [0xF1, 0x0A, 0x00, 0xEE], .step idle, .step idle, .provideKey 0x1B]
    let start := start .standard (.ofWords fun _ => 0)
    let m := (start.performAll past).machine
    (m.performBy (logger 5) (.step idle)).lines =
        [m.traceLine ⟨0x00EE⟩,
          ⟨.warn, "00EE at 0x202 failed: stack underflow: return with an empty call stack"⟩] ∧
      (start.performAllBy (logger 3) (past ++ [.step idle])).lines.length = 1 ∧
      (start.performAllBy (logger 3) past).machine =
        (start.performAllBy (logger 5) past).machine := by
  intro number logger idle past start m
  have full (level : Level) : (logger 5).writes level = true := by cases level <;> decide
  obtain ⟨observes, -, reports, warnings⟩ :=
    logging_only_observes logger 5 (fun _ _ written => written) full
  refine ⟨?_, ?_, ?_⟩
  · have running : m.isWaiting = false := by decide +kernel
    have fetched : m.state.fetch = .ok ⟨0x00EE⟩ := by decide +kernel
    have failed : (m.step idle).result = .error .stackUnderflow := by decide +kernel
    have pc : m.state.pc = 0x202 := by decide +kernel
    rw [(reports m _ _).1 (.fails running fetched failed), pc]
    rfl
  · have warning (line : Line) : (logger 3).writes line.level = decide (line.level = .warn) := by
      cases line.level <;> decide
    have failures : (start.history (past ++ [.step idle])).countP Event.stepFails = 1 := by
      decide +kernel
    rw [(observes 3 start _).2.2, ← List.countP_eq_length_filter]
    simp only [warning]
    rw [warnings, failures]
  · exact (observes 3 start past).2.1.trans (observes 5 start past).2.1.symm

end Machine

end Chip8
