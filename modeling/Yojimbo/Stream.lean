import Yojimbo.Config
import Mathlib.Data.List.Basic
/-!
# Bit streams

`ConnectionPacket::Serialize` is one template instantiated with three streams: a `WriteStream`
that packs bits into a buffer, a `ReadStream` that unpacks them, and a `MeasureStream` that only
counts them. The streams are not among the sources, so they are modelled from the spec: a value
goes out as its low bits, least significant first; a read past the end of the buffer fails; the
check is a 32-bit magic value written after byte alignment; the measure stream counts the bits the
write stream would write. A write past the end of the buffer fails too.

`Stream` is what the template sees of a stream: `IsReading` and the `SerializeInteger` that
`serialize_int` calls. Alignment, the check, `Flush` and the byte count are used only by their
callers, which know the stream they hold. `serialize_int` is modelled as the macro is written: the
value read is stored before it is checked against the range.
-/

namespace Yojimbo

/-- The low `n` bits of `value`, least significant first. -/
def lowBits : Nat → Nat → List Bool
  | 0, _ => []
  | n + 1, value => (value % 2 == 1) :: lowBits n (value / 2)

/-- The value of bits given least significant first. -/
def bitsValue : List Bool → Nat
  | [] => 0
  | b :: bits => (if b then 1 else 0) + 2 * bitsValue bits

@[simp] theorem length_lowBits (n value : Nat) : (lowBits n value).length = n := by
  induction n generalizing value with
  | zero => rfl
  | succ n ih => simp [lowBits, ih]

theorem bitsValue_lowBits (n value : Nat) : bitsValue (lowBits n value) = value % 2 ^ n := by
  induction n generalizing value with
  | zero => simp [lowBits, bitsValue, Nat.mod_one]
  | succ n ih =>
    rw [lowBits, bitsValue, ih, Nat.pow_succ, Nat.mul_comm _ 2, Nat.mod_mul]
    rcases Nat.mod_two_eq_zero_or_one value with h | h <;> simp [h]

/-- The bits from the end of `n` bits to the next byte boundary. -/
def alignBits (n : Nat) : Nat := (8 - n % 8) % 8

theorem lowBits_bitsValue : ∀ bits : List Bool, lowBits bits.length (bitsValue bits) = bits
  | [] => rfl
  | b :: bits => by
    have hmod : ((if b then 1 else 0) + 2 * bitsValue bits) % 2 = if b then 1 else 0 := by
      split <;> omega
    have hdiv : ((if b then 1 else 0) + 2 * bitsValue bits) / 2 = bitsValue bits := by
      split <;> omega
    rw [List.length_cons, lowBits, bitsValue, hmod, hdiv, lowBits_bitsValue bits]
    cases b <;> rfl

theorem bitsValue_lt : ∀ bits : List Bool, bitsValue bits < 2 ^ bits.length
  | [] => Nat.one_pos
  | b :: bits => by
    have := bitsValue_lt bits
    rw [bitsValue, List.length_cons, Nat.pow_succ]
    split <;> omega

/-- Modelled from the spec: `WriteStream` (yojimbo_serialize.h) is not in the sources. The bits
written so far into a buffer of `numBits` bits. -/
structure WriteStream where
  bits : List Bool
  numBits : Nat

/-- Modelled from the spec: `ReadStream` is not in the sources. The bits of the buffer and how
many have been read. -/
structure ReadStream where
  data : List Bool
  bitsRead : Nat

/-- Modelled from the spec: `MeasureStream` is not in the sources. The bits it has counted. -/
structure MeasureStream where
  bitsWritten : Nat

namespace WriteStream

/-- `WriteStream( buffer, bytes )`: nothing written yet. -/
def new (bytes : Int) : WriteStream := ⟨[], (bytes * 8).toNat⟩

/-- `SerializeBits`: the low `n` bits of `value`, if the buffer has room for them. -/
def serializeBits (s : WriteStream) (value n : Nat) : Option WriteStream :=
  if s.bits.length + n ≤ s.numBits then some { s with bits := s.bits ++ lowBits n value } else none

/-- `SerializeAlign`: zero bits up to the next byte boundary. -/
def serializeAlign (s : WriteStream) : Option WriteStream :=
  s.serializeBits 0 (alignBits s.bits.length)

/-- `SerializeCheck`: alignment, then the 32-bit magic value. -/
def serializeCheck (magic : UInt32) (s : WriteStream) : Option WriteStream :=
  s.serializeAlign.bind (·.serializeBits magic.toNat 32)

/-- `GetBytesProcessed`: the bytes the written bits take. -/
def getBytesProcessed (s : WriteStream) : Nat := (s.bits.length + 7) / 8

/-- The buffer after `Flush`: the written bits, padded with zero bits to whole bytes. -/
def flush (s : WriteStream) : List Bool :=
  s.bits ++ List.replicate (s.getBytesProcessed * 8 - s.bits.length) false

end WriteStream

namespace ReadStream

/-- `ReadStream( buffer, bytes )` over the bits of the buffer. -/
def new (data : List Bool) : ReadStream := ⟨data, 0⟩

/-- `SerializeBits`: the next `n` bits, unless that reads past the end. -/
def serializeBits (s : ReadStream) (n : Nat) : Option (ReadStream × Nat) :=
  if s.bitsRead + n ≤ s.data.length then
    some ({ s with bitsRead := s.bitsRead + n }, bitsValue ((s.data.drop s.bitsRead).take n))
  else none

/-- `SerializeAlign`: the bits up to the next byte boundary, which must be zero. -/
def serializeAlign (s : ReadStream) : Option ReadStream :=
  match s.serializeBits (alignBits s.bitsRead) with
  | some (s, 0) => some s
  | _ => none

/-- `SerializeCheck`: alignment, then a 32-bit value that must be the magic value. -/
def serializeCheck (magic : UInt32) (s : ReadStream) : Option ReadStream :=
  s.serializeAlign.bind fun s =>
    match s.serializeBits 32 with
    | some (s, value) => if value = magic.toNat then some s else none
    | none => none

end ReadStream

/-- What `ConnectionPacket::Serialize` sees of a stream: `Stream::IsReading` and
`SerializeInteger`, which gives back the value on write and measure and the value read on read. -/
class Stream (S : Type) where
  IsReading : Bool
  serializeInteger : S → Int → Int → Int → Option (S × Int)

instance : Stream WriteStream where
  IsReading := false
  serializeInteger s value min max :=
    (s.serializeBits (value - min).toNat (bitsRequired min max)).map (·, value)

instance : Stream ReadStream where
  IsReading := true
  serializeInteger s _ min max :=
    (s.serializeBits (bitsRequired min max)).map fun (s, value) => (s, value + min)

instance : Stream MeasureStream where
  IsReading := false
  serializeInteger s value min max := some (⟨s.bitsWritten + bitsRequired min max⟩, value)

/-- Modelled from the spec: `serialize_int` (yojimbo_serialize.h) is not in the sources. It
asserts `min < max`, and on a stream that writes (write and measure) that `value` is in range.
Then `SerializeInteger`: its failure is the `return false` of the macro, with `value` as it was.
On read the value read is stored in `value` before the range check, so a value out of range
returns `false` with it stored. `none` is an assert; otherwise the result, the stream, and
`value` after. -/
def serializeInt {S : Type} [Stream S] (s : S) (value min max : Int) : Option (Bool × S × Int) :=
  if min < max then
    if !Stream.IsReading S && !(decide (min ≤ value) && decide (value ≤ max)) then none
    else
      match Stream.serializeInteger s value min max with
      | none => some (false, s, value)
      | some (s, value) =>
        some (!Stream.IsReading S || (decide (min ≤ value) && decide (value ≤ max)), s, value)
  else none

/-! ### What each operation does -/

theorem WriteStream.serializeBits_some {s s' : WriteStream} {value n : Nat}
    (h : s.serializeBits value n = some s') :
    s'.bits = s.bits ++ lowBits n value ∧ s'.numBits = s.numBits := by
  unfold WriteStream.serializeBits at h
  split at h
  · cases h; exact ⟨rfl, rfl⟩
  · cases h

theorem WriteStream.serializeCheck_some {s s' : WriteStream} {magic : UInt32}
    (h : s.serializeCheck magic = some s') :
    s'.bits = s.bits ++ lowBits (alignBits s.bits.length) 0 ++ lowBits 32 magic.toNat := by
  obtain ⟨s₁, h₁, h₂⟩ := Option.bind_eq_some.mp h
  rw [(WriteStream.serializeBits_some h₂).1, (WriteStream.serializeBits_some h₁).1]

theorem ReadStream.serializeBits_some {r r' : ReadStream} {n value : Nat}
    (h : r.serializeBits n = some (r', value)) :
    r' = { r with bitsRead := r.bitsRead + n } ∧ r.bitsRead + n ≤ r.data.length ∧
      value < 2 ^ n ∧ lowBits n value = (r.data.drop r.bitsRead).take n := by
  unfold ReadStream.serializeBits at h
  split at h
  · rename_i hlen
    cases h
    have hwindow : ((r.data.drop r.bitsRead).take n).length = n := by simp; omega
    have hbits := lowBits_bitsValue ((r.data.drop r.bitsRead).take n)
    have hlt := bitsValue_lt ((r.data.drop r.bitsRead).take n)
    rw [hwindow] at hbits hlt
    exact ⟨rfl, hlen, hlt, hbits⟩
  · cases h

theorem ReadStream.serializeBits_of_prefix {r : ReadStream} {pre bits : List Bool}
    (hdata : pre ++ bits <+: r.data) (hpos : r.bitsRead = pre.length) :
    r.serializeBits bits.length =
      some ({ r with bitsRead := r.bitsRead + bits.length }, bitsValue bits) := by
  obtain ⟨rest, hrest⟩ := hdata
  have hlen : r.bitsRead + bits.length ≤ r.data.length := by
    rw [← hrest, hpos]; simp
  have hbits : (r.data.drop r.bitsRead).take bits.length = bits := by
    rw [← hrest, hpos, List.append_assoc, List.drop_left, List.take_left]
  simp [ReadStream.serializeBits, hlen, hbits]

theorem WriteStream.flush_prefix (w : WriteStream) : w.bits <+: w.flush := List.prefix_append _ _

theorem WriteStream.flush_of_aligned {w : WriteStream} (h : w.bits.length % 8 = 0) :
    w.getBytesProcessed = w.bits.length / 8 ∧ w.flush = w.bits := by
  have hbytes : (w.bits.length + 7) / 8 = w.bits.length / 8 := by omega
  refine ⟨hbytes, ?_⟩
  simp only [WriteStream.flush, WriteStream.getBytesProcessed, hbytes,
    show w.bits.length / 8 * 8 - w.bits.length = 0 by omega, List.replicate_zero, List.append_nil]

theorem WriteStream.serializeCheck_aligned {w wc : WriteStream} {magic : UInt32}
    (h : w.serializeCheck magic = some wc) :
    wc.bits.length = w.bits.length + (alignBits w.bits.length + 32) ∧ wc.bits.length % 8 = 0 := by
  have hlen : wc.bits.length = w.bits.length + (alignBits w.bits.length + 32) := by
    simp only [WriteStream.serializeCheck_some h, List.length_append, length_lowBits]; omega
  exact ⟨hlen, by rw [hlen]; unfold alignBits; omega⟩

/-! ### `serialize_int` on each stream -/

theorem serializeInt_write {w w' : WriteStream} {value value' min max : Int}
    (h : serializeInt w value min max = some (true, w', value')) : value' = value ∧
    w'.bits = w.bits ++ lowBits (bitsRequired min max) (value - min).toNat ∧ w'.numBits = w.numBits := by
  unfold serializeInt at h
  split_ifs at h
  rcases hw : w.serializeBits (value - min).toNat (bitsRequired min max) with _ | w₁ <;>
    simp only [Stream.serializeInteger, hw, Option.map_none', Option.map_some', Option.some.injEq,
      Prod.mk.injEq, Bool.false_eq_true, false_and] at h
  obtain ⟨-, rfl, rfl⟩ := h
  exact ⟨rfl, WriteStream.serializeBits_some hw⟩

/-- On a stream that does not read, `serialize_int` returns only past its asserts: `min < max` and
a value in range. -/
theorem serializeInt_range_of_not_reading {S : Type} [Stream S] (hS : Stream.IsReading S = false)
    {s s' : S} {value value' min max : Int} {ok : Bool}
    (h : serializeInt s value min max = some (ok, s', value')) : min < max ∧ min ≤ value ∧ value ≤ max := by
  unfold serializeInt at h
  split_ifs at h with hlt hout
  exact ⟨hlt, by simpa [hS] using hout⟩

theorem serializeInt_write_of_le {w : WriteStream} {value min max : Int} (hlt : min < max)
    (hmin : min ≤ value) (hmax : value ≤ max) (h : w.bits.length + bitsRequired min max ≤ w.numBits) :
    serializeInt w value min max =
      some (true, { w with bits := w.bits ++ lowBits (bitsRequired min max) (value - min).toNat }, value) := by
  simp [serializeInt, Stream.serializeInteger, WriteStream.serializeBits, h, hlt, hmin, hmax,
    Stream.IsReading]

/-- `serialize_int` on read: the assert, then the bits, whose value plus `min` is stored, and
`true` exactly when it is in range. A read past the end returns `false` with `value` as it was. -/
theorem serializeInt_read_eq (r : ReadStream) (v₀ min max : Int) :
    serializeInt r v₀ min max =
      if min < max then
        match r.serializeBits (bitsRequired min max) with
        | none => some (false, r, v₀)
        | some (r', bits) =>
          some (decide (min ≤ bits + min) && decide (bits + min ≤ max), r', (bits : Int) + min)
      else none := by
  unfold serializeInt
  by_cases hlt : min < max
  · simp only [if_pos hlt, Stream.IsReading, Bool.not_true, Bool.false_and, Bool.false_eq_true,
      if_false, Bool.false_or, Stream.serializeInteger]
    rcases r.serializeBits (bitsRequired min max) with _ | ⟨r', bits⟩ <;> rfl
  · simp only [if_neg hlt]

/-- What a `serialize_int` on read that returns did: it passed the assert; then either it ran
past the end and returned `false` with the stream and `value` as they were, or it moved past
`bitsRequired` bits, stored their value plus `min`, and returned whether that is at most `max`. -/
theorem serializeInt_read_some {r r' : ReadStream} {v₀ value min max : Int} {ok : Bool}
    (h : serializeInt r v₀ min max = some (ok, r', value)) :
    min < max ∧ (ok = false ∧ r' = r ∧ value = v₀ ∨
      r' = { r with bitsRead := r.bitsRead + bitsRequired min max } ∧
      r.bitsRead + bitsRequired min max ≤ r.data.length ∧ min ≤ value ∧
      value - min < ((2 ^ bitsRequired min max : Nat) : Int) ∧
      lowBits (bitsRequired min max) (value - min).toNat =
        (r.data.drop r.bitsRead).take (bitsRequired min max) ∧ (ok = true ↔ value ≤ max)) := by
  rw [serializeInt_read_eq] at h
  split_ifs at h with hlt
  refine ⟨hlt, ?_⟩
  split at h
  · simp only [Option.some.injEq, Prod.mk.injEq] at h
    obtain ⟨rfl, rfl, rfl⟩ := h
    exact .inl ⟨rfl, rfl, rfl⟩
  · rename_i r₁ bits hbits
    simp only [Option.some.injEq, Prod.mk.injEq] at h
    obtain ⟨rfl, rfl, rfl⟩ := h
    obtain ⟨rfl, hlen, hlt', hlow⟩ := ReadStream.serializeBits_some hbits
    refine .inr ⟨rfl, hlen, by omega, by simpa using (Int.ofNat_lt.mpr hlt'),
      by simpa using hlow, ?_⟩
    simp only [Bool.and_eq_true, decide_eq_true_eq]
    omega

theorem serializeInt_read_range {r r' : ReadStream} {v₀ value min max : Int}
    (h : serializeInt r v₀ min max = some (true, r', value)) : min ≤ value ∧ value ≤ max := by
  rw [serializeInt_read_eq] at h
  split_ifs at h
  split at h
  · simp at h
  · simp only [Option.some.injEq, Prod.mk.injEq, Bool.and_eq_true, decide_eq_true_eq] at h
    obtain ⟨hrange, -, rfl⟩ := h
    exact hrange

/-- On read, where the buffer holds what a write of an in-range `value` appended, `serialize_int`
gives `value` back and moves past exactly those bits. -/
theorem serializeInt_read {r : ReadStream} {pre : List Bool} {value min max : Int} (v₀ : Int)
    (hlt : min < max) (hmin : min ≤ value) (hmax : value ≤ max) (hspan : max - min < 4294967296)
    (hdata : pre ++ lowBits (bitsRequired min max) (value - min).toNat <+: r.data)
    (hpos : r.bitsRead = pre.length) :
    serializeInt r v₀ min max =
      some (true, { r with bitsRead := r.bitsRead + bitsRequired min max }, value) := by
  have hread := ReadStream.serializeBits_of_prefix hdata hpos
  rw [length_lowBits, bitsValue_lowBits, Nat.mod_eq_of_lt (lt_two_pow_bitsRequired hmax hspan)] at hread
  have hvalue : ((value - min).toNat : Int) + min = value := by omega
  rw [serializeInt_read_eq, if_pos hlt, hread]
  simp only [hvalue, hmin, hmax, decide_True, Bool.and_self]

theorem serializeInt_measure (m : MeasureStream) {value min max : Int} (hlt : min < max)
    (hmin : min ≤ value) (hmax : value ≤ max) :
    serializeInt m value min max = some (true, ⟨m.bitsWritten + bitsRequired min max⟩, value) := by
  simp [serializeInt, Stream.serializeInteger, Stream.IsReading, hlt, hmin, hmax]

/-- The check a `WriteStream` wrote is accepted by a `ReadStream` standing where it starts, and
takes it to the end of it. -/
theorem serializeCheck_round_trip {w wc : WriteStream} {magic : UInt32} {r : ReadStream}
    (hcheck : w.serializeCheck magic = some wc) (hdata : wc.bits <+: r.data)
    (hpos : r.bitsRead = w.bits.length) :
    r.serializeCheck magic = some { r with bitsRead := wc.bits.length } := by
  rw [WriteStream.serializeCheck_some hcheck] at hdata ⊢
  have halign := ReadStream.serializeBits_of_prefix ((List.prefix_append _ _).trans hdata) hpos
  have hmagic := ReadStream.serializeBits_of_prefix
    (r := { r with bitsRead := r.bitsRead + alignBits w.bits.length }) hdata (by simp [hpos])
  simp only [length_lowBits, bitsValue_lowBits, Nat.zero_mod] at halign hmagic
  rw [Nat.mod_eq_of_lt (show magic.toNat < 2 ^ 32 from magic.val.isLt)] at hmagic
  rw [hpos] at halign hmagic
  simp only [ReadStream.serializeCheck, ReadStream.serializeAlign, hpos, halign, Option.some_bind,
    hmagic, if_true, List.length_append, length_lowBits]

end Yojimbo
