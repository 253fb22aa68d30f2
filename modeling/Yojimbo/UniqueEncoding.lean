import Yojimbo.RoundTrip
/-!
# A packet has one encoding

The converse of the round trip. What `Serialize` on a `ReadStream` accepts from a buffer, with the
`SerializeCheck` after it, `WritePacket` writes back bit for bit from the packet it read, and
nothing after: a buffer the receiver accepts is, up to the end of the check, exactly the encoding
of the packet it yields (`writePacket_of_read`). So no bits of an accepted buffer are left out of
what the packet says, and no packet has two accepted encodings. As for the round trip,
`ChannelPacketData::SerializeInternal` is not in the sources, so of it only the per-entry contract
`EntryCanonical` is assumed: what a read of an entry consumes, a write of the entry it read
appends.

The proof follows the read: `serialize_int` of the count (`serializeInt_read_some`; a count it
accepts is in range, so a write of it passes the asserts), the loop over the entries
(`serializeEntries_write_of_read`) and the check (`ReadStream.serializeCheck_some`), each written
back by the same step on a `WriteStream` with room for it.
-/

namespace Yojimbo

open ConnectionPacket

/-! ### What a read consumed -/

/-- The bits of the buffer a read from `r` to `r'` went over. -/
def ReadStream.consumed (r r' : ReadStream) : List Bool :=
  (r.data.drop r.bitsRead).take (r'.bitsRead - r.bitsRead)

@[simp] theorem ReadStream.consumed_advance (r : ReadStream) (n : Nat) :
    r.consumed { r with bitsRead := r.bitsRead + n } = (r.data.drop r.bitsRead).take n := by
  simp [ReadStream.consumed]

theorem ReadStream.length_consumed_le (r r' : ReadStream) :
    (r.consumed r').length ≤ r'.bitsRead - r.bitsRead := by
  simp only [ReadStream.consumed, List.length_take]
  omega

theorem ReadStream.consumed_append {r r₁ r₂ : ReadStream} (h₁ : r.bitsRead ≤ r₁.bitsRead)
    (h₂ : r₁.bitsRead ≤ r₂.bitsRead) (hdata : r₁.data = r.data) :
    r.consumed r₁ ++ r₁.consumed r₂ = r.consumed r₂ := by
  unfold ReadStream.consumed
  rw [hdata, show r₂.bitsRead - r.bitsRead = (r₁.bitsRead - r.bitsRead) + (r₂.bitsRead - r₁.bitsRead)
    by omega, List.take_add, List.drop_drop, Nat.add_sub_cancel' h₁]

/-! ### Each read, written back -/

theorem ReadStream.serializeCheck_some {r r' : ReadStream} {magic : UInt32}
    (h : r.serializeCheck magic = some r') :
    r' = { r with bitsRead := r.bitsRead + (alignBits r.bitsRead + 32) } ∧
      r.bitsRead + (alignBits r.bitsRead + 32) ≤ r.data.length ∧
      lowBits (alignBits r.bitsRead) 0 ++ lowBits 32 magic.toNat =
        (r.data.drop r.bitsRead).take (alignBits r.bitsRead + 32) := by
  obtain ⟨r₁, halign, hmagic⟩ := Option.bind_eq_some.mp h
  unfold ReadStream.serializeAlign at halign
  split at halign
  · rename_i hbits₁
    cases halign
    obtain ⟨rfl, -, -, hzero⟩ := ReadStream.serializeBits_some hbits₁
    split at hmagic
    · rename_i value hbits₂
      split_ifs at hmagic with hvalue
      cases hmagic
      obtain ⟨rfl, hlen, -, hlow⟩ := ReadStream.serializeBits_some hbits₂
      refine ⟨by simp only [Nat.add_assoc], by simpa [Nat.add_assoc] using hlen, ?_⟩
      rw [List.take_add, hzero, ← hvalue, hlow, List.drop_drop]
    · cases hmagic
  · cases halign

theorem WriteStream.serializeCheck_of_le {w : WriteStream} {magic : UInt32}
    (h : w.bits.length + (alignBits w.bits.length + 32) ≤ w.numBits) :
    w.serializeCheck magic = some { w with
      bits := w.bits ++ (lowBits (alignBits w.bits.length) 0 ++ lowBits 32 magic.toNat) } := by
  have h₁ : w.bits.length + alignBits w.bits.length ≤ w.numBits := by omega
  have h₂ : (w.bits ++ lowBits (alignBits w.bits.length) 0).length + 32 ≤ w.numBits := by
    simp only [List.length_append, length_lowBits]; omega
  simp only [WriteStream.serializeCheck, WriteStream.serializeAlign, WriteStream.serializeBits,
    if_pos h₁, Option.some_bind, if_pos h₂, List.append_assoc]

/-! ### The entries loop -/

/-- The per-entry contract of the converse: a read into an initialised entry that returns `true`
leaves the buffer as it was, moves forward, and gives an entry not marked
`messageFailedToSerialize` whose write, with any factory and wherever the buffer has room, appends
exactly the bits the read went over. -/
def EntryCanonical (codec : EntryCodec) (config : ConnectionConfig) : Prop :=
  ∀ r g r' g' e, codec.read config (r, g) .initial = (true, (r', g'), e) →
    e.messageFailedToSerialize = false ∧ r'.data = r.data ∧ r.bitsRead ≤ r'.bitsRead ∧
    ∀ (w : WriteStream) (h : MessageFactory), w.bits.length + (r'.bitsRead - r.bitsRead) ≤ w.numBits →
      ∃ h' e', codec.write config (w, h) e =
        (true, ({ w with bits := w.bits ++ r.consumed r' }, h'), e')

/-- The read loop over initialised entries, under the contract, is written back bit for bit by the
write loop over the entries it read. -/
theorem serializeEntries_write_of_read {codec : EntryCodec} {config : ConnectionConfig}
    (hcanon : EntryCanonical codec config) :
    ∀ {k : Nat} {r r' : ReadStream} {g g' : MessageFactory} {es : List ChannelPacketData},
    serializeEntries (codec.read config) (r, g) (List.replicate k .initial) =
      some (true, (r', g'), es) →
    r'.data = r.data ∧ r.bitsRead ≤ r'.bitsRead ∧
    ∀ (w : WriteStream) (h : MessageFactory), w.bits.length + (r'.bitsRead - r.bitsRead) ≤ w.numBits →
      ∃ h' es', serializeEntries (codec.write config) (w, h) es =
        some (true, ({ w with bits := w.bits ++ r.consumed r' }, h'), es')
  | 0, r, r', g, g', es, h => by
    simp only [List.replicate_zero, serializeEntries, Option.some.injEq, Prod.mk.injEq] at h
    obtain ⟨-, ⟨rfl, rfl⟩, rfl⟩ := h
    exact ⟨rfl, Nat.le_refl _, fun w h _ => ⟨h, [], by simp [ReadStream.consumed, serializeEntries]⟩⟩
  | k + 1, r, r', g, g', es, h => by
    obtain ⟨-, ⟨r₁, g₁⟩, e₁, es₁, hread, hrest, rfl⟩ := serializeEntries_cons_true h
    obtain ⟨hflag, hdata₁, hle₁, hwrite₁⟩ := hcanon r g r₁ g₁ e₁ hread
    obtain ⟨hdata, hle, hwrite⟩ := serializeEntries_write_of_read hcanon hrest
    refine ⟨hdata.trans hdata₁, Nat.le_trans hle₁ hle, fun w h hroom => ?_⟩
    obtain ⟨h₁, e', hw₁⟩ := hwrite₁ w h (by omega)
    have hroom₁ := ReadStream.length_consumed_le r r₁
    obtain ⟨h₂, es', hw⟩ := hwrite { w with bits := w.bits ++ r.consumed r₁ } h₁ (by
      simp only [List.length_append]; omega)
    refine ⟨h₂, e' :: es', ?_⟩
    rw [serializeEntries_cons_of_ok hflag hw₁, hw]
    simp only [Option.map_some', List.append_assoc, ReadStream.consumed_append hle₁ hle hdata₁]

/-! ### The packet -/

theorem serialize_new_read_true {se : EntrySerializer ReadStream} {g g' : MessageFactory}
    {config : ConnectionConfig} {r r' : ReadStream} {q : ConnectionPacket}
    (hmax : config.numChannels ≤ MaxChannels)
    (h : new.serialize se g config r = some (true, r', q, g')) :
    ∃ r₁ g₁ es, serializeInt r 0 0 config.numChannels = some (true, r₁, q.numChannelEntries) ∧
      serializeEntries (se config) (r₁, g₁) (List.replicate q.numChannelEntries.toNat .initial) =
        some (true, (r', g'), es) ∧ q.channelEntries = some es := by
  rcases hint : serializeInt r 0 0 config.numChannels with _ | ⟨_ | _, r₁, n⟩
  · simp [serialize, new, hint] at h
  · rw [serialize_new_read_false hint] at h
    cases h
  obtain ⟨hlo, hhi⟩ := serializeInt_read_range hint
  by_cases hpos : 0 < n
  · rw [serialize_new_read_pos hint hpos (Int.le_trans hhi hmax)] at h
    split_ifs at h
    · obtain ⟨⟨ok, ⟨r₂, g₂⟩, es⟩, hloop, hr⟩ := Option.map_eq_some'.mp h
      simp only [Prod.mk.injEq] at hr
      obtain ⟨rfl, rfl, rfl, rfl⟩ := hr
      have hlen : es.length = n.toNat := by rw [serializeEntries_length hloop, List.length_replicate]
      refine ⟨r₁, _, es, rfl, hloop, ?_⟩
      simp only [channelEntries, if_neg (Int.not_le.mpr hpos)]
      rw [if_pos hlen.ge, ← hlen, List.take_length]
    · cases h
  · rw [serialize_new_read_nonpos hint hpos] at h
    simp only [Option.some.injEq, Prod.mk.injEq] at h
    obtain ⟨-, rfl, rfl, rfl⟩ := h
    obtain rfl : n = 0 := by omega
    exact ⟨r₁, g, [], rfl, rfl, rfl⟩

/-- What `Serialize` on a `ReadStream` read from the start of a buffer into a new packet,
`Serialize` of that packet on a `WriteStream` with room for it writes back bit for bit. -/
theorem serialize_write_of_read {codec : EntryCodec} {config : ConnectionConfig}
    {g g' f : MessageFactory} {data : List Bool} {r : ReadStream} {q : ConnectionPacket}
    {w : WriteStream} (hmax : config.numChannels ≤ MaxChannels) (hcanon : EntryCanonical codec config)
    (hread : new.serialize codec.read g config (ReadStream.new data) = some (true, r, q, g'))
    (hroom : w.bits.length + r.bitsRead ≤ w.numBits) :
    r.data = data ∧ ∃ q' f', q.serialize codec.write f config w =
      some (true, { w with bits := w.bits ++ data.take r.bitsRead }, q', f') := by
  obtain ⟨r₁, g₁, es, hint, hloop, hentries⟩ := serialize_new_read_true hmax hread
  obtain ⟨hlt, ⟨hok, -⟩ | ⟨rfl, -, hlo, -, hcount, hhi⟩⟩ := serializeInt_read_some hint
  · cases hok
  obtain ⟨hdata, hle, hwrite⟩ := serializeEntries_write_of_read hcanon hloop
  simp only [ReadStream.new, Nat.zero_add, List.drop_zero] at hdata hle hcount hwrite
  -- the count, then the entries, each written back
  have hint_w : serializeInt w q.numChannelEntries 0 config.numChannels =
      some (true, _, q.numChannelEntries) :=
    serializeInt_write_of_le hlt hlo (hhi.mp rfl) (by omega)
  obtain ⟨f', es', hloop_w⟩ := hwrite
    { w with bits := w.bits ++ lowBits (bitsRequired 0 config.numChannels) (q.numChannelEntries - 0).toNat }
    f (by simp only [List.length_append, length_lowBits]; omega)
  obtain ⟨q', hser⟩ := serialize_of_not_reading_loop rfl hentries hint_w hloop_w
  refine ⟨hdata, q', f', hser.trans ?_⟩
  have hbits : lowBits (bitsRequired 0 config.numChannels) (q.numChannelEntries - 0).toNat ++
      ReadStream.consumed ⟨data, bitsRequired 0 config.numChannels⟩ r = data.take r.bitsRead := by
    rw [hcount, ReadStream.consumed]
    dsimp only
    rw [← List.take_add, Nat.add_sub_cancel' hle]
  simp only [List.append_assoc, hbits]

/-- A buffer the receiver accepts, `Serialize` into a new packet and then `SerializeCheck`, is
exactly what `WritePacket` writes of the packet read from it, when the buffer it is given has room:
the bits up to the end of the check, a whole number of bytes, and nothing after them. -/
theorem writePacket_of_read {codec : EntryCodec} {config : ConnectionConfig}
    {g g' f : MessageFactory} {magic : UInt32} {bufferSize : Int} {data : List Bool}
    {r rc : ReadStream} {q : ConnectionPacket}
    (hmax : config.numChannels ≤ MaxChannels) (hcanon : EntryCanonical codec config)
    (hread : new.serialize codec.read g config (ReadStream.new data) = some (true, r, q, g'))
    (hcheck : r.serializeCheck magic = some rc) (hroom : (rc.bitsRead : Int) ≤ bufferSize * 8) :
    ∃ q' f', writePacket magic codec.write f config q bufferSize =
      some (((rc.bitsRead / 8 : Nat) : Int), data.take rc.bitsRead, q', f') := by
  obtain ⟨rfl, hlen, hcheckbits⟩ := ReadStream.serializeCheck_some hcheck
  dsimp only at hroom
  obtain ⟨hdata, q', f', hser⟩ := serialize_write_of_read (f := f) (w := WriteStream.new bufferSize) hmax hcanon hread
    (by simp only [WriteStream.new, List.length_nil] at hroom ⊢; omega)
  subst hdata
  rw [show (WriteStream.new bufferSize).bits = [] from rfl, List.nil_append] at hser
  have htake : (r.data.take r.bitsRead).length = r.bitsRead := by simp only [List.length_take]; omega
  have hcheck_w : WriteStream.serializeCheck magic
      ⟨r.data.take r.bitsRead, (WriteStream.new bufferSize).numBits⟩ =
      some ⟨r.data.take (r.bitsRead + (alignBits r.bitsRead + 32)), (WriteStream.new bufferSize).numBits⟩ := by
    rw [WriteStream.serializeCheck_of_le (by simp only [htake, WriteStream.new]; omega)]
    simp only [htake, hcheckbits, ← List.take_add]
  have hlen' : (r.data.take (r.bitsRead + (alignBits r.bitsRead + 32))).length =
      r.bitsRead + (alignBits r.bitsRead + 32) := by simp only [List.length_take]; omega
  -- the check ends on a byte boundary, so `Flush` adds nothing
  obtain ⟨hbytes, hflush⟩ := WriteStream.flush_of_aligned
    (w := ⟨r.data.take (r.bitsRead + (alignBits r.bitsRead + 32)), (WriteStream.new bufferSize).numBits⟩)
    (by dsimp only; rw [hlen']; unfold alignBits; omega)
  refine ⟨q', f', ?_⟩
  simp only [writePacket, hser, hcheck_w, hbytes, hflush, hlen']

theorem entryCanonical_initial (config : ConnectionConfig) :
    EntryCanonical ⟨fun _ s e => (true, s, e), fun _ s e => (true, s, e), fun _ s e => (true, s, e)⟩
      config := by
  intro r g r' g' e h
  simp only [Prod.mk.injEq, true_and] at h
  obtain ⟨⟨rfl, rfl⟩, rfl⟩ := h
  exact ⟨rfl, rfl, Nat.le_refl _, fun w h _ => ⟨h, .initial, by simp [ReadStream.consumed]⟩⟩

theorem writePacket_of_read_two_entries :
    let codec : EntryCodec :=
      ⟨fun _ s e => (true, s, e), fun _ s e => (true, s, e), fun _ s e => (true, s, e)⟩
    let f := MessageFactory.new ⟨[], 0, fun _ => true⟩ 1 .messageFactory
    let config : ConnectionConfig := ⟨2, fun _ => ⟨.reliableOrdered⟩⟩
    let data := lowBits 2 2 ++ lowBits 6 0 ++ lowBits 32 0x12345678
    ∃ q g', (new.serialize codec.read f config (ReadStream.new data) = some (true, ⟨data, 2⟩, q, g') ∧
        ReadStream.serializeCheck 0x12345678 ⟨data, 2⟩ = some ⟨data, 40⟩) ∧
      ∃ q' f', writePacket 0x12345678 codec.write f config q 16 = some (5, data, q', f') := by
  intro codec f config data
  obtain ⟨q, g', hread⟩ : ∃ q g',
      new.serialize codec.read f config (ReadStream.new data) = some (true, ⟨data, 2⟩, q, g') :=
    ⟨_, _, by simp only [codec, f, config, data]; rfl⟩
  have hcheck : ReadStream.serializeCheck 0x12345678 ⟨data, 2⟩ = some ⟨data, 40⟩ := by
    simp only [data]; rfl
  obtain ⟨q', f', hwrite⟩ := writePacket_of_read (f := f) (by decide)
    (entryCanonical_initial config) hread hcheck (show ((40 : Nat) : Int) ≤ 16 * 8 by decide)
  exact ⟨q, g', ⟨hread, hcheck⟩, q', f', hwrite.trans (by simp only [data]; rfl)⟩

end Yojimbo
