import Mathlib.Data.List.Nodup
import Chip8.Proofs.Run.LastWrite
import Chip8.Proofs.Safety.Checked

namespace Chip8

namespace Memory

variable (m : Memory) {address : Nat}

theorem exists_read (inside : address < 4096) :
    ∃ value, m.read address = .ok value ∧ m.bytes[address]? = some value := by
  have held : m.bytes[address]? = some m.bytes[address] := Vector.getElem?_eq_getElem inside
  exact ⟨_, read_eq_ok_iff.2 held, held⟩

theorem read_of_outside (outside_memory : ¬ address < 4096) :
    m.read address = .error (outside address) := by
  rw [read, Vector.getElem?_eq_none (Nat.not_lt.1 outside_memory)]

theorem exists_readWord (fits : Fits address 2) :
    ∃ high low, m.read address = .ok high ∧ m.read (address + 1) = .ok low ∧
      m.readWord address = .ok (Word.ofBytes high low) := by
  obtain ⟨high, readHigh, heldHigh⟩ := m.exists_read fits.1
  have second : address + 1 < 4096 := fits.2
  obtain ⟨low, readLow, heldLow⟩ := m.exists_read second
  exact ⟨high, low, readHigh, readLow, by rw [readWord, heldHigh, heldLow]⟩

end Memory

inductive Access where
  | read (address : Nat)
  | readWord (address : Nat)
  | slice (address length : Nat)
  | write (address : Nat) (value : UInt8)
  | load (address : Nat) (data : List UInt8)
  | fill (address length : Nat) (value : UInt8)
  deriving DecidableEq, Repr

namespace Access

inductive Reply where
  | byte (value : UInt8)
  | word (value : UInt16)
  | bytes (data : List UInt8)
  | done
  deriving DecidableEq, Repr

/-- An activity in memory, which may stop with a fault in the middle. -/
abbrev InPlace := EStateM Fault Memory

namespace InPlace

def stop (address length : Nat) : InPlace Nat :=
  match Memory.stop address length with
  | .ok stop => pure stop
  | .error fault => throw fault

def get (address : Nat) : InPlace UInt8 := do
  match (← MonadState.get).bytes[address]? with
  | some value => pure value
  | none => throw (.outOfBounds address)

def put (address : Nat) : List UInt8 → InPlace Unit
  | [] => pure ()
  | value :: rest => do
    modify fun m => ⟨m.bytes.setIfInBounds address value⟩
    put (address + 1) rest

def putAll (address : Nat) (data : List UInt8) : InPlace Unit := do
  let _ ← stop address data.length
  put address data

end InPlace

open InPlace in
def run : Access → InPlace Reply
  | read address => return .byte (← get address)
  | readWord address => do
    let _ ← stop address 2
    return .word (Word.ofBytes (← get address) (← get (address + 1)))
  | slice address length => do
    let stop ← stop address length
    return .bytes (((← MonadState.get).bytes.toList.drop address).take (stop - address))
  | write address value => do
    let _ ← get address
    put address [value]
    return .done
  | load address data => do
    putAll address data
    return .done
  | fill address length value => do
    putAll address (List.replicate length value)
    return .done

def apply (m : Memory) : Access → Except Fault (Reply × Memory)
  | read address => (m.read address).map fun value => (.byte value, m)
  | readWord address => (m.readWord address).map fun value => (.word value, m)
  | slice address length => (m.slice address length).map fun data => (.bytes data, m)
  | write address value => (m.write address value).map fun after => (.done, after)
  | load address data => (m.load address data).map fun after => (.done, after)
  | fill address length value => (m.fill address length value).map fun after => (.done, after)

namespace InPlace

variable {α β : Type} (m : Memory)

theorem bind_run (first : InPlace α) (next : α → InPlace β) :
    (first >>= next) m = match first m with
      | .ok a after => next a after
      | .error fault after => .error fault after := by
  show EStateM.bind first next m = _
  unfold EStateM.bind
  cases first m <;> rfl

theorem stop_run (address length : Nat) :
    stop address length m =
      if Memory.Fits address length then .ok (address + length) m
      else .error (Memory.outside address) m := by
  rw [stop, Memory.stop_eq]
  by_cases fits : Memory.Fits address length
  · rw [if_pos fits, if_pos fits]
    rfl
  · rw [if_neg fits, if_neg fits]
    rfl

theorem get_run (address : Nat) :
    get address m = match m.read address with
      | .ok value => .ok value m
      | .error fault => .error fault m := by
  have state : (MonadState.get : InPlace Memory) m = .ok m m := rfl
  rw [get, bind_run, state]
  dsimp only
  by_cases inside : address < 4096
  · obtain ⟨value, read, held⟩ := m.exists_read inside
    rw [held, read]
    rfl
  · rw [m.read_of_outside inside, Vector.getElem?_eq_none (Nat.not_lt.1 inside), Memory.outside,
      Nat.max_eq_left (Nat.not_lt.1 inside)]
    rfl

theorem put_run (address : Nat) (data : List UInt8) :
    put address data m = .ok () ⟨Memory.overwrite m.bytes address data⟩ := by
  induction data generalizing m address with
  | nil => rfl
  | cons value rest ih =>
    rw [put, bind_run]
    exact ih _ _

theorem putAll_run (address : Nat) (data : List UInt8) :
    putAll address data m = match m.load address data with
      | .ok after => .ok () after
      | .error fault => .error fault m := by
  rw [putAll, bind_run, stop_run, Memory.load]
  by_cases fits : Memory.Fits address data.length
  · rw [if_pos fits, if_pos fits]
    exact put_run m address data
  · rw [if_neg fits, if_neg fits]

end InPlace

/-- Going on in memory comes to the same as taking memory for a value. In particular a failure
leaves memory alone. -/
theorem run_eq (a : Access) (m : Memory) :
    a.run m = match a.apply m with
      | .ok (reply, after) => .ok reply after
      | .error fault => .error fault m := by
  cases a with
  | read address =>
    rw [run, apply, InPlace.bind_run, InPlace.get_run]
    cases m.read address <;> rfl
  | readWord address =>
    rw [run, apply, InPlace.bind_run, InPlace.stop_run]
    by_cases fits : Memory.Fits address 2
    · obtain ⟨high, low, readHigh, readLow, readWord⟩ := m.exists_readWord fits
      rw [if_pos fits, readWord]
      dsimp only
      rw [InPlace.bind_run, InPlace.get_run, readHigh]
      dsimp only
      rw [InPlace.bind_run, InPlace.get_run, readLow]
      rfl
    · rw [if_neg fits, m.readWord_of_not_fits fits]
      rfl
  | slice address length =>
    rw [run, apply, InPlace.bind_run, InPlace.stop_run, Memory.slice]
    by_cases fits : Memory.Fits address length
    · rw [if_pos fits, if_pos fits]
      dsimp only
      rw [InPlace.bind_run, Nat.add_sub_cancel_left]
      rfl
    · rw [if_neg fits, if_neg fits]
      rfl
  | write address value =>
    -- the byte that is there is looked up first, which fails exactly where the write would
    rw [run, apply, InPlace.bind_run, InPlace.get_run, Memory.write]
    by_cases inside : address < 4096
    · obtain ⟨old, read, -⟩ := m.exists_read inside
      rw [if_pos inside, read]
      rfl
    · rw [if_neg inside, m.read_of_outside inside]
      rfl
  | load address data =>
    rw [run, apply, InPlace.bind_run, InPlace.putAll_run]
    cases m.load address data <;> rfl
  | fill address length value =>
    rw [run, apply, InPlace.bind_run, InPlace.putAll_run, Memory.fill_eq_load]
    cases m.load address (List.replicate length value) <;> rfl

def address : Access → Nat
  | read a | readWord a | slice a _ | write a _ | load a _ | fill a _ _ => a

def Fits : Access → Prop
  | read a | write a _ => a < 4096
  | readWord a => a ≤ 4094
  | slice a length | fill a length _ => a < 4096 ∧ a + length ≤ 4096
  | load a data => a < 4096 ∧ a + data.length ≤ 4096

theorem fits_readWord_iff {a : Nat} : (readWord a).Fits ↔ Memory.Fits a 2 := by
  unfold Fits Memory.Fits
  omega

/-- The byte that the access puts at a place, if it puts one there. -/
def gives? (place : Nat) : Access → Option UInt8
  | read _ | readWord _ | slice _ _ => none
  | write a value => Memory.placed [value] a place
  | load a data => Memory.placed data a place
  | fill a length value => Memory.placed (List.replicate length value) a place

def Answers (m : Memory) (reply : Reply) : Access → Prop
  | read a => ∃ value, m.bytes[a]? = some value ∧ reply = .byte value
  | readWord a => ∃ high low word, m.read a = .ok high ∧ m.read (a + 1) = .ok low ∧
    word.toNat = 256 * high.toNat + low.toNat ∧ reply = .word word
  | slice a length => ∃ data, data.length = length ∧ (∀ k < length, data[k]? = m.bytes[a + k]?) ∧
    reply = .bytes data
  | write _ _ | load _ _ | fill _ _ _ => reply = .done

/-- An access succeeds exactly if it fits, answers what memory holds and leaves memory with the
bytes that it gives; else it names the first address outside and leaves memory alone. -/
structure Exact (a : Access) (m : Memory) : Prop where
  succeeds_iff : (∃ reply after, a.run m = .ok reply after) ↔ a.Fits
  answers : ∀ reply after, a.run m = .ok reply after → a.Answers m reply
  writes : ∀ reply after, a.run m = .ok reply after →
    ∀ place < 4096, after.bytes[place]? = (a.gives? place).or m.bytes[place]?
  fails : ¬ a.Fits → a.run m = .error (.outOfBounds (max a.address 4096)) m

theorem apply_of_fits {a : Access} (fits : a.Fits) (m : Memory) :
    ∃ reply after, a.apply m = .ok (reply, after) ∧ a.Answers m reply ∧
      ∀ place < 4096, after.bytes[place]? = (a.gives? place).or m.bytes[place]? := by
  have overwritten (address : Nat) (data : List UInt8) : ∀ place < 4096,
      (Memory.overwrite m.bytes address data)[place]? =
        (Memory.placed data address place).or m.bytes[place]? :=
    fun _ inside => Memory.getElem?_overwrite_eq_or _ _ _ inside
  cases a with
  | read address =>
    obtain ⟨value, read, held⟩ := m.exists_read fits
    exact ⟨_, m, by rw [apply, read]; rfl, ⟨value, held, rfl⟩, fun _ _ => Option.none_or.symm⟩
  | readWord address =>
    obtain ⟨high, low, readHigh, readLow, readWord⟩ :=
      m.exists_readWord (fits_readWord_iff.1 fits)
    have number : (Word.ofBytes high low).toNat = 256 * high.toNat + low.toNat := by
      rw [Word.toNat_ofBytes, Nat.mul_comm]
    exact ⟨_, m, by rw [apply, readWord]; rfl, ⟨high, low, _, readHigh, readLow, number, rfl⟩,
      fun _ _ => Option.none_or.symm⟩
  | slice address length =>
    have slice : m.slice address length = .ok ((m.bytes.toList.drop address).take length) :=
      if_pos fits
    refine ⟨_, m, by rw [apply, slice]; rfl, ⟨_, Memory.length_of_slice slice, ?_, rfl⟩,
      fun _ _ => Option.none_or.symm⟩
    intro k hk
    rw [List.getElem?_take, if_pos hk, List.getElem?_drop, Vector.getElem?_toList]
  | write address value =>
    have written : m.write address value = .ok ⟨Memory.overwrite m.bytes address [value]⟩ :=
      if_pos fits
    exact ⟨.done, _, by rw [apply, written]; rfl, rfl, overwritten address [value]⟩
  | load address data =>
    have loaded : m.load address data = .ok ⟨Memory.overwrite m.bytes address data⟩ := if_pos fits
    exact ⟨.done, _, by rw [apply, loaded]; rfl, rfl, overwritten address data⟩
  | fill address length value =>
    have filled : m.fill address length value =
      .ok ⟨Memory.overwrite m.bytes address (List.replicate length value)⟩ := if_pos fits
    exact ⟨.done, _, by rw [apply, filled]; rfl, rfl, overwritten address _⟩

theorem apply_of_not_fits {a : Access} (misfit : ¬ a.Fits) (m : Memory) :
    a.apply m = .error (.outOfBounds (max a.address 4096)) := by
  cases a with
  | read address =>
    rw [apply, m.read_of_outside misfit]
    rfl
  | readWord address =>
    rw [apply, m.readWord_of_not_fits (mt fits_readWord_iff.2 misfit)]
    rfl
  | slice address length =>
    have refused : m.slice address length = .error (Memory.outside address) := if_neg misfit
    rw [apply, refused]
    rfl
  | write address value =>
    have refused : m.write address value = .error (Memory.outside address) := if_neg misfit
    rw [apply, refused]
    rfl
  | load address data =>
    have refused : m.load address data = .error (Memory.outside address) := if_neg misfit
    rw [apply, refused]
    rfl
  | fill address length value =>
    have refused : m.fill address length value = .error (Memory.outside address) := if_neg misfit
    rw [apply, refused]
    rfl

theorem exact_run (a : Access) (m : Memory) : a.Exact m := by
  by_cases fits : a.Fits
  · obtain ⟨reply, after, applied, answers, writes⟩ := apply_of_fits fits m
    have done : a.run m = .ok reply after := by rw [run_eq, applied]
    refine ⟨iff_of_true ⟨reply, after, done⟩ fits, ?_, ?_, fun misfit => absurd fits misfit⟩
    · intro reply' after' done'
      cases done.symm.trans done'
      exact answers
    · intro reply' after' done'
      cases done.symm.trans done'
      exact writes
  · have failed : a.run m = .error (.outOfBounds (max a.address 4096)) m := by
      rw [run_eq, apply_of_not_fits fits]
    refine ⟨iff_of_false ?_ fits, ?_, ?_, fun _ => failed⟩
    · rintro ⟨reply, after, done⟩
      cases failed.symm.trans done
    · intro reply after done
      cases failed.symm.trans done
    · intro reply after done
      cases failed.symm.trans done

end Access

namespace Memory

def writeEach (m : Memory) (writes : List (Nat × UInt8)) : Except Fault Memory :=
  writes.foldlM (fun m w => m.write w.1 w.2) m

/-- The bytes of a load, each with the address that it goes to. -/
def placements (address : Nat) (data : List UInt8) : List (Nat × UInt8) :=
  data.mapIdx fun k byte => (address + k, byte)

theorem mem_placements {address a : Nat} {data : List UInt8} {byte : UInt8} :
    (a, byte) ∈ placements address data ↔ ∃ k, data[k]? = some byte ∧ a = address + k := by
  simp only [placements, List.mem_mapIdx, Prod.mk.injEq, List.getElem?_eq_some_iff]
  constructor
  · rintro ⟨k, hk, rfl, rfl⟩
    exact ⟨k, ⟨hk, rfl⟩, rfl⟩
  · rintro ⟨k, ⟨hk, rfl⟩, rfl⟩
    exact ⟨k, hk, rfl, rfl⟩

theorem addresses_placements (address : Nat) (data : List UInt8) :
    (placements address data).map Prod.fst = (List.range data.length).map (address + ·) := by
  apply List.ext_getElem
  · simp [placements]
  · simp [placements]

theorem nodup_addresses_placements (address : Nat) (data : List UInt8) :
    ((placements address data).map Prod.fst).Nodup := by
  rw [addresses_placements]
  apply List.Nodup.map _ List.nodup_range
  intro j k
  exact Nat.add_left_cancel

theorem writeEach_spec {m : Memory} {writes : List (Nat × UInt8)}
    (inside : ∀ w ∈ writes, w.1 < 4096) (distinct : (writes.map Prod.fst).Nodup) :
    ∃ after, m.writeEach writes = .ok after ∧ (∀ w ∈ writes, after.bytes[w.1]? = some w.2) ∧
      ∀ a, a ∉ writes.map Prod.fst → after.bytes[a]? = m.bytes[a]? := by
  induction writes generalizing m with
  | nil => exact ⟨m, rfl, by simp, fun _ _ => rfl⟩
  | cons w rest ih =>
    obtain ⟨fresh, distinct⟩ := List.nodup_cons.1 distinct
    have here : w.1 < 4096 := inside w (List.mem_cons_self ..)
    have first : m.write w.1 w.2 = .ok ⟨m.bytes.setIfInBounds w.1 w.2⟩ := if_pos here
    obtain ⟨after, written, given, kept⟩ := ih (m := ⟨m.bytes.setIfInBounds w.1 w.2⟩)
      (fun w' later => inside w' (List.mem_cons_of_mem _ later)) distinct
    refine ⟨after, ?_, ?_, ?_⟩
    · rw [writeEach, List.foldlM_cons, first]
      exact written
    · intro w' mem
      rcases List.mem_cons.1 mem with rfl | later
      · -- no later write goes to the address of the first
        rw [kept _ fresh]
        simp [here]
      · exact given w' later
    · intro a other
      obtain ⟨apart, later⟩ := not_or.1 (mt List.mem_cons.2 other)
      rw [kept a later]
      simp [Ne.symm apart]

/-- A load that fits does the same as a write of each of its bytes, in whatever order. -/
theorem writeEach_eq_load {m : Memory} {address : Nat} {data : List UInt8}
    (fits : Fits address data.length) {writes : List (Nat × UInt8)}
    (order : writes.Perm (placements address data)) :
    m.writeEach writes = m.load address data := by
  have inside : ∀ w ∈ writes, w.1 < 4096 := by
    rintro ⟨a, byte⟩ mem
    obtain ⟨k, held, rfl⟩ := mem_placements.1 (order.mem_iff.1 mem)
    have hk : k < data.length := (List.getElem?_eq_some_iff.1 held).1
    have ends := fits.2
    omega
  have distinct : (writes.map Prod.fst).Nodup :=
    (order.map Prod.fst).nodup_iff.2 (nodup_addresses_placements address data)
  obtain ⟨after, written, given, kept⟩ := writeEach_spec (m := m) inside distinct
  have loaded : m.load address data = .ok ⟨overwrite m.bytes address data⟩ := if_pos fits
  rw [written, loaded]
  congr 1
  apply ext_getElem?
  intro a
  rw [getElem?_overwrite]
  split
  · next covered =>
    obtain ⟨k, rfl⟩ := Nat.exists_eq_add_of_le covered.1
    have hk : k < data.length := by omega
    -- the write of this byte is somewhere among the writes
    have mem : (address + k, data[k]) ∈ writes :=
      order.mem_iff.2 (mem_placements.2 ⟨k, List.getElem?_eq_getElem hk, rfl⟩)
    rw [given _ mem, Nat.add_sub_cancel_left, List.getElem?_eq_getElem hk]
  · next uncovered =>
    apply kept
    rw [(order.map Prod.fst).mem_iff, addresses_placements]
    intro mem
    obtain ⟨k, hk, rfl⟩ := List.mem_map.1 mem
    have hk : k < data.length := List.mem_range.1 hk
    have ends := fits.2
    omega

end Memory

namespace Access

structure Entry where
  access : Access
  answer : Except Fault Reply

/-- The byte that the access has put at a place: none if it failed. -/
def Entry.gave? (place : Nat) (e : Entry) : Option UInt8 :=
  match e.answer with
  | .ok _ => e.access.gives? place
  | .error _ => none

def perform (m : Memory) (a : Access) : Except Fault Reply × Memory :=
  match a.run m with
  | .ok reply after => (.ok reply, after)
  | .error fault after => (.error fault, after)

def performAll (m : Memory) : List Access → List Entry × Memory
  | [] => ([], m)
  | a :: rest =>
    let first := perform m a
    let later := performAll first.2 rest
    (⟨a, first.1⟩ :: later.1, later.2)

def last? (place : Nat) (entries : List Entry) : Option UInt8 :=
  (entries.filterMap (Entry.gave? place)).getLast?

theorem last?_cons (place : Nat) (e : Entry) (rest : List Entry) :
    last? place (e :: rest) = (last? place rest).or (e.gave? place) := by
  unfold last?
  cases h : e.gave? place with
  | none => rw [List.filterMap_cons_none h, Option.or_none]
  | some byte =>
    rw [List.filterMap_cons_some h, List.getLast?_cons]
    cases (rest.filterMap (Entry.gave? place)).getLast? <;> rfl

theorem memory_perform (m : Memory) (a : Access) {place : Nat} (inside : place < 4096) :
    (perform m a).2.bytes[place]? =
      (Entry.gave? place ⟨a, (perform m a).1⟩).or m.bytes[place]? := by
  have exact_a := exact_run a m
  unfold perform
  cases h : a.run m with
  | ok reply after => exact exact_a.writes reply after h place inside
  | error fault after =>
    have misfit : ¬ a.Fits := by
      intro fits
      obtain ⟨reply, after', done⟩ := exact_a.succeeds_iff.2 fits
      cases done.symm.trans h
    cases (exact_a.fails misfit).symm.trans h
    rfl

theorem memory_performAll (m : Memory) (accesses : List Access) {place : Nat}
    (inside : place < 4096) :
    (performAll m accesses).2.bytes[place]? =
      (last? place (performAll m accesses).1).or m.bytes[place]? := by
  induction accesses generalizing m with
  | nil => rfl
  | cons a rest ih =>
    change (performAll (perform m a).2 rest).2.bytes[place]? =
      (last? place (⟨a, (perform m a).1⟩ :: (performAll (perform m a).2 rest).1)).or _
    rw [ih, memory_perform m a inside, last?_cons, Option.or_assoc]

/-- Every access to every memory is exact, with addresses and lengths of any size, and done byte by
byte in memory it comes to what `Memory` makes of it. A load that succeeds does the same as a write
of each of its bytes, in whatever order. So after any accesses a read gives the byte that was last
put at its address with success, or the one that was there before. -/
theorem accesses_are_exact :
    (∀ (a : Access) (m : Memory), a.Exact m ∧
      a.run m = match a.apply m with
        | .ok (reply, after) => .ok reply after
        | .error fault => .error fault m) ∧
    (∀ (m loaded : Memory) (address : Nat) (data : List UInt8), m.load address data = .ok loaded →
      ∀ writes : List (Nat × UInt8), writes.Perm (Memory.placements address data) →
        m.writeEach writes = .ok loaded) ∧
    ∀ (m : Memory) (place : Nat) (initial : UInt8), m.read place = .ok initial →
      ∀ accesses : List Access,
        let performed := performAll m accesses
        (perform performed.2 (.read place)).1 =
          .ok (.byte ((last? place performed.1).getD initial)) := by
  refine ⟨fun a m => ⟨exact_run a m, run_eq a m⟩, ?_, ?_⟩
  · intro m loaded address data success writes order
    have fits : Memory.Fits address data.length := by
      by_contra misfit
      have refused : m.load address data = .error (Memory.outside address) := if_neg misfit
      cases refused.symm.trans success
    rw [Memory.writeEach_eq_load fits order, success]
  · intro m place initial before accesses performed
    have held := Memory.read_eq_ok_iff.1 before
    have inside : place < 4096 := (Vector.getElem?_eq_some_iff.1 held).1
    have now : performed.2.read place = .ok ((last? place performed.1).getD initial) := by
      apply Memory.read_eq_ok_iff.2
      rw [memory_performAll m accesses inside, held]
      cases last? place performed.1 <;> rfl
    rw [perform, run_eq, apply, now]
    rfl

/-- A length that takes the sum of 64 bits around, a load of which only a part would fit, two bytes
in both orders, and a byte that was written between two loads, of which the second fails. -/
theorem accesses_are_exact_around_the_end :
    let m := Memory.blank
    let performed := performAll m [.load 0xFFE [1, 2], .write 0xFFF 7, .load 0xFFF [8, 9]]
    (slice 1 0xFFFFFFFFFFFFFFFF).run m = .error (.outOfBounds 4096) m ∧
      (load 0xFFE [1, 2, 3]).run m = .error (.outOfBounds 4096) m ∧
      (∃ loaded, m.load 0xFFE [1, 2] = .ok loaded ∧
        m.writeEach [(0xFFF, 2), (0xFFE, 1)] = .ok loaded) ∧
      (perform performed.2 (.read 0xFFF)).1 = .ok (.byte 7) := by
  intro m performed
  obtain ⟨exact_all, any_order, last_put⟩ := accesses_are_exact
  have around : ¬ (slice 1 0xFFFFFFFFFFFFFFFF).Fits := by
    rintro ⟨-, ends⟩
    omega
  have partly : ¬ (load 0xFFE [1, 2, 3]).Fits := by
    rintro ⟨-, ends⟩
    revert ends
    decide
  have success : m.load 0xFFE [1, 2] = .ok ⟨Memory.overwrite m.bytes 0xFFE [1, 2]⟩ :=
    if_pos (by decide)
  have swapped : [(0xFFF, 2), (0xFFE, 1)].Perm (Memory.placements 0xFFE [1, 2]) := .swap ..
  have zero : m.read 0xFFF = .ok 0 := by decide +kernel
  have last : last? 0xFFF performed.1 = some 7 := by decide +kernel
  refine ⟨(exact_all _ m).1.fails around, (exact_all _ m).1.fails partly,
    ⟨_, success, any_order m _ _ _ success _ swapped⟩, ?_⟩
  rw [last_put m 0xFFF 0 zero, last]
  rfl

end Access

end Chip8
