import Yojimbo.PacketRead
import Yojimbo.PacketAssembly
/-!
# Round trip of a connection packet

What `WritePacket` writes, `Serialize` on a `ReadStream` reads back into a new packet: the same
count, the same entries in the same order, and exactly the bits `Serialize` wrote, after which the
`SerializeCheck` that `WritePacket` wrote is accepted and ends at the end of the bytes `WritePacket`
returned. `Serialize` on a `MeasureStream` counts those same bits. `ChannelPacketData::SerializeInternal` is not in the sources, so of it only the
per-entry contract `EntryRoundTrips` is assumed, entry by entry.

The proof follows `Serialize`: `serialize_int` of the count (`serializeInt_write`,
`serializeInt_read`, `serializeInt_measure`), the loop over the entries
(`serializeEntries_round_trip`), and the check (`serializeCheck_round_trip`).

Put after the assembly of `GeneratePacket`, this says what a connection sends: a buffer that
`GeneratePacket` wrote is read back as the entries of the channels that had data, in id order
(`generatePacket_delivers`).
-/

namespace Yojimbo

open ConnectionPacket

/-- The per-entry contract: a write of `entry` that succeeds appends some bits; a read from the
same position, into an initialised entry and with any factory, gives `entry` back and consumes
exactly those bits; and a measure from the same position counts exactly them. -/
def EntryRoundTrips (codec : EntryCodec) (config : ConnectionConfig) (entry : ChannelPacketData) :
    Prop :=
  ∀ w g w' g' e', codec.write config (w, g) entry = (true, (w', g'), e') → ∃ out, w'.bits = w.bits ++ out ∧
    w'.numBits = w.numBits ∧
    (∀ (r : ReadStream) (h : MessageFactory), w'.bits <+: r.data → r.bitsRead = w.bits.length →
      ∃ h', codec.read config (r, h) .initial = (true, ({ r with bitsRead := w'.bits.length }, h'), entry)) ∧
    (∀ (m : MeasureStream) (h : MessageFactory), m.bitsWritten = w.bits.length →
      ∃ h' e'', codec.measure config (m, h) entry = (true, (⟨w'.bits.length⟩, h'), e''))

/-! ### The entries loop -/

/-- The write loop over entries that keep the per-entry contract, read back into initialised
entries and measured from the same positions. -/
theorem serializeEntries_round_trip {codec : EntryCodec} {config : ConnectionConfig} :
    ∀ {entries : List ChannelPacketData} {w w' : WriteStream} {g g' : MessageFactory}
      {entries' : List ChannelPacketData},
    (∀ e ∈ entries, EntryRoundTrips codec config e) →
    serializeEntries (codec.write config) (w, g) entries = some (true, (w', g'), entries') →
    w.bits <+: w'.bits ∧ w'.numBits = w.numBits ∧
    (∀ (r : ReadStream) (h : MessageFactory), w'.bits <+: r.data → r.bitsRead = w.bits.length →
      ∃ h', serializeEntries (codec.read config) (r, h) (List.replicate entries.length .initial) =
        some (true, ({ r with bitsRead := w'.bits.length }, h'), entries)) ∧
    (∀ (m : MeasureStream) (h : MessageFactory), m.bitsWritten = w.bits.length →
      ∃ h' es, serializeEntries (codec.measure config) (m, h) entries =
        some (true, (⟨w'.bits.length⟩, h'), es))
  | [], w, w', g, g', entries', _, h => by
    simp only [serializeEntries, Option.some.injEq, Prod.mk.injEq] at h
    obtain ⟨-, ⟨rfl, -⟩, -⟩ := h
    refine ⟨List.prefix_refl _, rfl, fun r h _ hpos => ⟨h, ?_⟩, fun m h hm => ⟨h, [], ?_⟩⟩
    · rw [← hpos]; rfl
    · rw [← hm]; rfl
  | e :: es, w, w', g, g', entries', hcontract, h => by
    obtain ⟨hflag, ⟨w₁, g₁⟩, e₁, es₁, hwrite, hrest, -⟩ := serializeEntries_cons_true h
    obtain ⟨out, hbits, hnum, hread, hmeasure⟩ :=
      hcontract e (List.mem_cons_self _ _) w g w₁ g₁ e₁ hwrite
    obtain ⟨hpre, hnum', hread', hmeasure'⟩ :=
      serializeEntries_round_trip (fun e he => hcontract e (List.mem_cons_of_mem _ he)) hrest
    refine ⟨?_, hnum'.trans hnum, fun r h hdata hpos => ?_, fun m h hm => ?_⟩
    · rw [hbits] at hpre
      exact (List.prefix_append _ _).trans hpre
    · obtain ⟨h₁, hr₁⟩ := hread r h (hpre.trans hdata) hpos
      obtain ⟨h₂, hr₂⟩ := hread' ⟨r.data, w₁.bits.length⟩ h₁ hdata rfl
      refine ⟨h₂, ?_⟩
      rw [List.length_cons, List.replicate_succ,
        serializeEntries_cons_of_ok ChannelPacketData.initial_messageFailedToSerialize hr₁, hr₂]
      rfl
    · obtain ⟨h₁, e₂, hm₁⟩ := hmeasure m h hm
      obtain ⟨h₂, es₂, hm₂⟩ := hmeasure' ⟨w₁.bits.length⟩ h₁ rfl
      exact ⟨h₂, e₂ :: es₂, by rw [serializeEntries_cons_of_ok hflag hm₁, hm₂]; rfl⟩

/-! ### `Serialize` on each stream -/

section

variable {S : Type} [Stream S] {se : EntrySerializer S} {p : ConnectionPacket} {f : MessageFactory}
  {config : ConnectionConfig} {s s₁ : S} {entries : List ChannelPacketData}

/-- On a stream that does not read, `Serialize` is `serialize_int` of the count and then the loop
over the packet's entries, with the stream and the factory. -/
theorem serialize_of_not_reading (hS : Stream.IsReading S = false)
    (hentries : p.channelEntries = some entries)
    (hint : serializeInt s p.numChannelEntries 0 config.numChannels =
      some (true, s₁, p.numChannelEntries)) :
    (p.serialize se f config s).map (fun r => (r.1, r.2.1, r.2.2.2)) =
      (serializeEntries (se config) (s₁, f) entries).map (fun r => (r.1, r.2.1.1, r.2.1.2)) := by
  unfold serialize
  rw [hint]
  dsimp only
  unfold channelEntries at hentries
  split_ifs at hentries with hle
  · cases hentries
    rw [if_neg (by omega)]
    rfl
  · rw [if_pos (by omega)]
    rcases harr : p.channelEntry with _ | array <;> rw [harr] at hentries
    · cases hentries
    · dsimp only at hentries
      split_ifs at hentries with hlen
      cases hentries
      simp only [serializeChannelEntries, hS, Bool.false_eq_true, if_false, Bool.false_and, harr,
        Nat.not_lt.mpr hlen, Option.map_map]
      rfl

theorem serialize_of_not_reading_loop {s₂ : S} {f₂ : MessageFactory} {es : List ChannelPacketData}
    {ok : Bool} (hS : Stream.IsReading S = false) (hentries : p.channelEntries = some entries)
    (hint : serializeInt s p.numChannelEntries 0 config.numChannels =
      some (true, s₁, p.numChannelEntries))
    (hloop : serializeEntries (se config) (s₁, f) entries = some (ok, (s₂, f₂), es)) :
    ∃ q, p.serialize se f config s = some (ok, s₂, q, f₂) := by
  have hmap : (p.serialize se f config s).map (fun r => (r.1, r.2.1, r.2.2.2)) =
      (serializeEntries (se config) (s₁, f) entries).map (fun r => (r.1, r.2.1.1, r.2.1.2)) :=
    serialize_of_not_reading hS hentries hint
  rw [hloop] at hmap
  obtain ⟨⟨ok', s', q, f'⟩, hser, heq⟩ := Option.map_eq_some'.mp hmap
  simp only [Option.map_some', Prod.mk.injEq] at heq
  obtain ⟨rfl, rfl, rfl⟩ := heq
  exact ⟨q, hser⟩

theorem loop_of_serialize_not_reading {q : ConnectionPacket} {s₂ : S} {f₂ : MessageFactory}
    {ok : Bool} (hS : Stream.IsReading S = false) (hentries : p.channelEntries = some entries)
    (hint : serializeInt s p.numChannelEntries 0 config.numChannels =
      some (true, s₁, p.numChannelEntries))
    (h : p.serialize se f config s = some (ok, s₂, q, f₂)) :
    ∃ es, serializeEntries (se config) (s₁, f) entries = some (ok, (s₂, f₂), es) := by
  have hmap : (p.serialize se f config s).map (fun r => (r.1, r.2.1, r.2.2.2)) =
      (serializeEntries (se config) (s₁, f) entries).map (fun r => (r.1, r.2.1.1, r.2.1.2)) :=
    serialize_of_not_reading hS hentries hint
  rw [h] at hmap
  obtain ⟨⟨ok', ⟨s', f'⟩, es⟩, hloop, heq⟩ := Option.map_eq_some'.mp hmap.symm
  simp only [Option.map_some', Prod.mk.injEq] at heq
  obtain ⟨rfl, rfl, rfl⟩ := heq
  exact ⟨es, hloop⟩

end

theorem serialize_write_true {se : EntrySerializer WriteStream} {p p' : ConnectionPacket}
    {f f' : MessageFactory} {config : ConnectionConfig} {bufferSize : Int} {w : WriteStream}
    {entries : List ChannelPacketData} (hentries : p.channelEntries = some entries)
    (hwrite : p.serialize se f config (WriteStream.new bufferSize) = some (true, w, p', f')) :
    ∃ w₁ es, serializeInt (WriteStream.new bufferSize) p.numChannelEntries 0 config.numChannels =
        some (true, w₁, p.numChannelEntries) ∧
      w₁.bits = lowBits (bitsRequired 0 config.numChannels) (p.numChannelEntries - 0).toNat ∧
      serializeEntries (se config) (w₁, f) entries = some (true, (w, f'), es) := by
  obtain ⟨w₁, hint⟩ : ∃ w₁, serializeInt (WriteStream.new bufferSize) p.numChannelEntries 0
      config.numChannels = some (true, w₁, p.numChannelEntries) := by
    rcases h : serializeInt (WriteStream.new bufferSize) p.numChannelEntries 0 config.numChannels
      with _ | ⟨_ | _, w₁, v⟩
    · simp [serialize, h] at hwrite
    · simp [serialize, h] at hwrite
    · exact ⟨w₁, by rw [(serializeInt_write h).1]⟩
  obtain ⟨es, hloop⟩ := loop_of_serialize_not_reading rfl hentries hint hwrite
  exact ⟨w₁, es, hint, by simpa [WriteStream.new] using (serializeInt_write hint).2.1, hloop⟩

/-! ### The round trip -/

section

variable {codec : EntryCodec} {config : ConnectionConfig} {p p' : ConnectionPacket}
  {f f' : MessageFactory} {bufferSize : Int} {w : WriteStream} {entries : List ChannelPacketData}

/-- What `Serialize` and `SerializeCheck` write of a packet whose entries keep the per-entry
contract, `Serialize` on a `ReadStream` reads back into a new packet whose allocation succeeds:
the same count and entries, exactly the bits `Serialize` wrote, and then the check. -/
theorem packet_read_round_trip {g : MessageFactory} {magic : UInt32} {wc : WriteStream}
    (hmaxChannels : config.numChannels ≤ MaxChannels) (hentries : p.channelEntries = some entries)
    (hcontract : ∀ e ∈ entries, EntryRoundTrips codec config e)
    (hwrite : p.serialize codec.write f config (WriteStream.new bufferSize) = some (true, w, p', f'))
    (hcheck : w.serializeCheck magic = some wc)
    (halloc : g.allocator.succeeds g.allocator.next = true) :
    ∃ r q g', ConnectionPacket.new.serialize codec.read g config (ReadStream.new wc.flush) =
        some (true, r, q, g') ∧
      q.numChannelEntries = p.numChannelEntries ∧ q.channelEntries = some entries ∧
      r.bitsRead = w.bits.length ∧ r.serializeCheck magic = some { r with bitsRead := wc.bits.length } := by
  obtain ⟨w₁, es, hint, hbits₁, hloop⟩ := serialize_write_true hentries hwrite
  obtain ⟨hlt, hmin, hmax⟩ := serializeInt_range_of_not_reading rfl hint
  obtain ⟨hpre, -, hread, -⟩ := serializeEntries_round_trip hcontract hloop
  have hflush : w.bits <+: wc.flush := List.IsPrefix.trans
    ⟨_, by rw [WriteStream.serializeCheck_some hcheck, List.append_assoc]⟩ wc.flush_prefix
  have hspan : config.numChannels - 0 < 4294967296 := by
    simp only [MaxChannels] at hmaxChannels; omega
  -- the count, then the entries
  have hint_r := serializeInt_read (r := ReadStream.new wc.flush) 0 hlt hmin hmax hspan
    (show [] ++ _ <+: _ by simpa [hbits₁] using hpre.trans hflush) rfl
  obtain ⟨g₂, hloop_r⟩ := hread ⟨wc.flush, 0 + bitsRequired 0 config.numChannels⟩
    { g with allocator := g.allocator.allocate.2 } hflush (by simp [hbits₁])
  rw [channelEntries_length hentries] at hloop_r
  obtain ⟨q, g', hser, hq, hqentries⟩ :=
    serialize_new_of_read hint_r ⟨hmin, Int.le_trans hmax hmaxChannels⟩ halloc hloop_r
  exact ⟨_, q, g', hser, hq, hqentries, rfl, serializeCheck_round_trip hcheck wc.flush_prefix rfl⟩

theorem packet_measure_round_trip (hentries : p.channelEntries = some entries)
    (hcontract : ∀ e ∈ entries, EntryRoundTrips codec config e)
    (hwrite : p.serialize codec.write f config (WriteStream.new bufferSize) = some (true, w, p', f')) :
    ∃ m q' f'', p.serialize codec.measure f config ⟨0⟩ = some (true, m, q', f'') ∧
      m.bitsWritten = w.bits.length := by
  obtain ⟨w₁, es, hint, hbits₁, hloop⟩ := serialize_write_true hentries hwrite
  obtain ⟨hlt, hmin, hmax⟩ := serializeInt_range_of_not_reading rfl hint
  obtain ⟨-, -, -, hmeasure⟩ := serializeEntries_round_trip hcontract hloop
  obtain ⟨f'', es_m, hloop_m⟩ := hmeasure ⟨0 + bitsRequired 0 config.numChannels⟩ f (by simp [hbits₁])
  obtain ⟨q', hser_m⟩ := serialize_of_not_reading_loop rfl hentries
    (serializeInt_measure ⟨0⟩ hlt hmin hmax) hloop_m
  exact ⟨_, q', f'', hser_m, rfl⟩

end

/-- What `WritePacket` writes of a packet whose entries keep the per-entry contract, when it writes
some bytes, `Serialize` on a `ReadStream` over the buffer reads back into a new packet whose
allocation succeeds: the same count and entries, exactly the bits `Serialize` wrote, and then the
check, which ends exactly at the end of the `packetBytes` bytes. `Serialize` on a `MeasureStream`
counts the same bits. -/
theorem packet_round_trip {codec : EntryCodec} {config : ConnectionConfig} {p p' : ConnectionPacket}
    {f f' g : MessageFactory} {magic : UInt32} {bufferSize packetBytes : Int} {buffer : List Bool}
    {entries : List ChannelPacketData} (hmaxChannels : config.numChannels ≤ MaxChannels)
    (hentries : p.channelEntries = some entries)
    (hcontract : ∀ e ∈ entries, EntryRoundTrips codec config e)
    (hwrite : writePacket magic codec.write f config p bufferSize = some (packetBytes, buffer, p', f'))
    (hbytes : 0 < packetBytes) (halloc : g.allocator.succeeds g.allocator.next = true) :
    ∃ w, p.serialize codec.write f config (WriteStream.new bufferSize) = some (true, w, p', f') ∧
      ∃ r q g', ConnectionPacket.new.serialize codec.read g config (ReadStream.new buffer) =
          some (true, r, q, g') ∧
        q.numChannelEntries = p.numChannelEntries ∧ q.channelEntries = some entries ∧
        r.bitsRead = w.bits.length ∧ r.serializeCheck magic = some { r with bitsRead := buffer.length } ∧
        buffer.length = packetBytes.toNat * 8 ∧
        ∃ m q' f'', p.serialize codec.measure f config ⟨0⟩ = some (true, m, q', f'') ∧
          m.bitsWritten = w.bits.length := by
  obtain ⟨w, wc, hser, hcheck, rfl, rfl⟩ := writePacket_pos hwrite hbytes
  have haligned := (WriteStream.serializeCheck_aligned hcheck).2
  obtain ⟨hbytes', hflush⟩ := WriteStream.flush_of_aligned haligned
  obtain ⟨r, q, g', hread, hq, hqentries, hbits, hcheck'⟩ :=
    packet_read_round_trip hmaxChannels hentries hcontract hser hcheck halloc
  refine ⟨w, hser, r, q, g', hread, hq, hqentries, hbits, hflush ▸ hcheck', ?_,
    packet_measure_round_trip hentries hcontract hser⟩
  rw [hflush, hbytes', Int.toNat_natCast]
  omega

theorem entryRoundTrips_initial (config : ConnectionConfig) :
    EntryRoundTrips ⟨fun _ s e => (true, s, e), fun _ s e => (true, s, e), fun _ s e => (true, s, e)⟩
      config .initial := by
  intro w g w' g' e' h
  simp only [Prod.mk.injEq, true_and] at h
  obtain ⟨⟨rfl, rfl⟩, rfl⟩ := h
  refine ⟨[], (List.append_nil _).symm, rfl, fun r h _ hpos => ⟨h, ?_⟩, fun m h hm => ⟨h, .initial, ?_⟩⟩
  · rw [← hpos]
  · rw [← hm]

theorem packet_round_trip_two_entries :
    let codec : EntryCodec :=
      ⟨fun _ s e => (true, s, e), fun _ s e => (true, s, e), fun _ s e => (true, s, e)⟩
    let f := MessageFactory.new ⟨[], 0, fun _ => true⟩ 1 .messageFactory
    let config : ConnectionConfig := ⟨2, fun _ => ⟨.reliableOrdered⟩⟩
    let p : ConnectionPacket := ⟨2, some ⟨0, [.initial, .initial]⟩, false⟩
    ∃ buffer, writePacket 0x12345678 codec.write f config p 16 = some (5, buffer, p, f) ∧
      ∃ w, p.serialize codec.write f config (WriteStream.new 16) = some (true, w, p, f) ∧
        ∃ r q g', ConnectionPacket.new.serialize codec.read f config (ReadStream.new buffer) =
            some (true, r, q, g') ∧
          q.numChannelEntries = p.numChannelEntries ∧ q.channelEntries = some [.initial, .initial] ∧
          r.bitsRead = w.bits.length ∧
          r.serializeCheck 0x12345678 = some { r with bitsRead := buffer.length } ∧
          buffer.length = (5 : Int).toNat * 8 ∧
          ∃ m q' f'', p.serialize codec.measure f config ⟨0⟩ = some (true, m, q', f'') ∧
            m.bitsWritten = w.bits.length := by
  intro codec f config p
  obtain ⟨buffer, hwrite⟩ : ∃ buffer,
      writePacket 0x12345678 codec.write f config p 16 = some (5, buffer, p, f) :=
    ⟨_, by simp only [codec, f, config, p]; rfl⟩
  have hcontract : ∀ e ∈ [ChannelPacketData.initial, .initial], EntryRoundTrips codec config e := by
    intro e he
    simp only [List.mem_cons, List.mem_singleton, or_self, List.not_mem_nil, or_false] at he
    exact he ▸ entryRoundTrips_initial _
  exact ⟨buffer, hwrite, packet_round_trip (by decide) rfl hcontract hwrite (by decide) rfl⟩

/-! ### What a connection sends -/

namespace Connection

section

variable {σ : Type} (ops : ChannelOps σ)
  (conservativeConnectionPacketHeaderEstimate conservativeChannelHeaderEstimate : Int)
  (magic : UInt32) (codec : EntryCodec)

/-- What `GeneratePacket` sends, the peer reads: when `WritePacket` wrote some bytes and the
entries of the channels with data keep the per-entry contract, `Serialize` on a `ReadStream` over
the buffer, with an allocation that succeeds, reads one entry per channel that returned a positive
bit count, the entries of those channels in id order, and then accepts the check. -/
theorem generatePacket_delivers (conn : Connection σ) (packetSequence : UInt16) (maxPacketBytes : Int)
    {conn' : Connection σ} {packetBytes : Int} {buffer : List Bool}
    {results : List (Int × ChannelPacketData)}
    {channel : List σ} {f₀ g : MessageFactory} {availableBits : Int}
    (hloop : budgetLoop ops conservativeChannelHeaderEstimate packetSequence conn.channel
      conn.messageFactory (cInt (cInt (maxPacketBytes * 8) - conservativeConnectionPacketHeaderEstimate)) =
        (results, channel, f₀, availableBits))
    (h : generatePacket ops conservativeConnectionPacketHeaderEstimate conservativeChannelHeaderEstimate
        magic codec.write conn packetSequence maxPacketBytes =
      some (true, some (packetBytes, buffer), conn'))
    (hbytes : 0 < packetBytes)
    (hcontract : ∀ e ∈ dataOf results, EntryRoundTrips codec conn.connectionConfig e)
    (halloc : g.allocator.succeeds g.allocator.next = true) :
    ∃ r q g', ConnectionPacket.new.serialize codec.read g conn.connectionConfig (ReadStream.new buffer) =
        some (true, r, q, g') ∧
      q.numChannelEntries = numChannelsWithData results ∧ q.channelEntries = some (dataOf results) ∧
      ∃ r', r.serializeCheck magic = some r' := by
  obtain ⟨packet, f, ha, -, -, hwrite⟩ := generatePacket_assembled ops _ _ magic codec.write h
  obtain ⟨_, _, packet', f', hw, ⟨⟩, -⟩ := hwrite rfl
  rw [hloop] at ha
  obtain ⟨w, wc, hser, hcheck, -, rfl⟩ := writePacket_pos hw hbytes
  obtain ⟨hnum, hentries, -⟩ := assemblePacket_true ha
  obtain ⟨r, q, g', hread, hq, hqentries, -, hcheck'⟩ :=
    packet_read_round_trip conn.numChannels_le hentries hcontract hser hcheck halloc
  exact ⟨r, q, g', hread, hq.trans hnum, hqentries, _, hcheck'⟩

end

theorem generatePacket_delivers_one_channel :
    let ops : ChannelOps Unit := ⟨fun _ _ => (), fun _ _ => (),
      fun c f _ availableBits => (if 8 ≤ availableBits then 8 else 0, .initial, c, f),
      fun c f _ => (c, f), fun c _ => c, fun c f => (c, f)⟩
    let codec : EntryCodec :=
      ⟨fun _ s e => (true, s, e), fun _ s e => (true, s, e), fun _ s e => (true, s, e)⟩
    let conn : Connection Unit := ⟨MessageFactory.new ⟨[], 0, fun _ => true⟩ 1 .messageFactory,
      ⟨1, fun _ => ⟨.reliableOrdered⟩⟩, [()], by decide, by decide, rfl⟩
    ∃ results channel f₀ availableBits packetBytes buffer conn',
      (budgetLoop ops 32 0 conn.channel conn.messageFactory (cInt (cInt (100 * 8) - 16)) =
          (results, channel, f₀, availableBits) ∧
        generatePacket ops 16 32 0x12345678 codec.write conn 0 100 =
          some (true, some (packetBytes, buffer), conn') ∧
        0 < packetBytes ∧ (∀ e ∈ dataOf results, EntryRoundTrips codec conn.connectionConfig e) ∧
        conn.messageFactory.allocator.succeeds conn.messageFactory.allocator.next = true) ∧
      ∃ r q g', ConnectionPacket.new.serialize codec.read conn.messageFactory conn.connectionConfig
          (ReadStream.new buffer) = some (true, r, q, g') ∧
        q.numChannelEntries = numChannelsWithData results ∧ q.channelEntries = some (dataOf results) ∧
        ∃ r', r.serializeCheck 0x12345678 = some r' := by
  intro ops codec conn
  have hcontract : ∀ e ∈ dataOf [((8 : Int), ChannelPacketData.initial)],
      EntryRoundTrips codec conn.connectionConfig e := fun e he => by
    have he : e = .initial := by simpa [dataOf] using he
    exact he ▸ entryRoundTrips_initial _
  obtain ⟨f₀, availableBits, hloop⟩ : ∃ f₀ availableBits,
      budgetLoop ops 32 0 conn.channel conn.messageFactory (cInt (cInt (100 * 8) - 16)) =
        ([(8, .initial)], [()], f₀, availableBits) := ⟨_, _, by simp only [ops, conn]; rfl⟩
  obtain ⟨buffer, conn', hgen⟩ : ∃ buffer conn',
      generatePacket ops 16 32 0x12345678 codec.write conn 0 100 =
        some (true, some (5, buffer), conn') := ⟨_, _, by simp only [ops, codec, conn]; rfl⟩
  exact ⟨_, _, _, _, _, _, _, ⟨hloop, hgen, by decide, hcontract, rfl⟩,
    generatePacket_delivers ops 16 32 0x12345678 codec conn 0 100 hloop hgen (by decide) hcontract rfl⟩

end Connection

end Yojimbo
