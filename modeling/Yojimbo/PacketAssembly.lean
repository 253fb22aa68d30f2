import Yojimbo.Connection
/-!
# The packet `GeneratePacket` assembles

The two loops of `GeneratePacket` have to agree: the first counts the channels with data and
`AllocateChannelData` takes that many entries, and the second writes `channelEntry[index]` once
for each channel it finds flagged, in id order. With the allocation succeeding, the packet passed
to `WritePacket` holds exactly the entries of the channels that returned a positive bit count, in
id order, and that packet is the one `WritePacket` writes (`assemblePacket_entries`). No copy goes
past the array, which would stop the program, and the entry of a channel without data, which the
source leaves uninitialised, is never read (`copyLoop_congr`).

The copy loop is described once, by `copyLoop_eq`; `assemblePacket_eq` then gives the assembled
packet in closed form for each outcome of the allocation, and the facts about `GeneratePacket` are
read off it and off the inversion lemma `generatePacket_assembled`.
-/

namespace Yojimbo

namespace Connection

/-- The entries of the channels with data, in id order. -/
def dataOf (results : List (Int × ChannelPacketData)) : List ChannelPacketData :=
  (results.filter (0 < ·.1)).map (·.2)

theorem length_dataOf (results : List (Int × ChannelPacketData)) :
    ((dataOf results).length : Int) = numChannelsWithData results := by
  simp [dataOf, numChannelsWithData]

/-- From `index`, the copy loop writes the entries of the channels with data one after the other,
when the array has room for them. -/
theorem copyLoop_eq : ∀ (results : List (Int × ChannelPacketData)) (pre rest : List ChannelPacketData),
    (dataOf results).length ≤ rest.length →
    copyLoop results pre.length (pre ++ rest) =
      some (pre ++ dataOf results ++ rest.drop (dataOf results).length)
  | [], pre, rest, _ => by simp [copyLoop, dataOf]
  | (packetDataBits, data) :: results, pre, rest, hroom => by
    by_cases hdata : 0 < packetDataBits
    · obtain _ | ⟨r, rest⟩ := rest
      · simp [dataOf, hdata] at hroom
      · have hnext := copyLoop_eq results (pre ++ [data]) rest (by simpa [dataOf, hdata] using hroom)
        simp only [List.length_append, List.length_singleton, List.append_assoc,
          List.singleton_append] at hnext
        simp [copyLoop, hdata, hnext, dataOf]
    · have hnext := copyLoop_eq results pre rest (by simpa [dataOf, hdata] using hroom)
      simp [copyLoop, hdata, hnext, dataOf]

theorem copyLoop_replicate (results : List (Int × ChannelPacketData)) (entry : ChannelPacketData) :
    copyLoop results 0 (List.replicate (numChannelsWithData results).toNat entry) =
      some (dataOf results) := by
  have hlen := length_dataOf results
  have hcopy := copyLoop_eq results [] (List.replicate (numChannelsWithData results).toNat entry)
    (by rw [List.length_replicate]; omega)
  rwa [List.length_nil, List.nil_append, List.nil_append,
    List.drop_of_length_le (by rw [List.length_replicate]; omega), List.append_nil] at hcopy

theorem numChannelsWithData_le_length (results : List (Int × ChannelPacketData)) :
    numChannelsWithData results ≤ results.length := by
  have := List.length_filter_le (0 < ·.1) results
  simp only [numChannelsWithData]
  omega

/-- Two results of the budget loop with the same bit counts, whose entries differ at most for
channels without data: `channelData[channelId]` of such a channel is left uninitialised. -/
def AgreeOnData : List (Int × ChannelPacketData) → List (Int × ChannelPacketData) → Prop :=
  List.Forall₂ fun r r' => r.1 = r'.1 ∧ (0 < r.1 → r.2 = r'.2)

/-- The copy loop never reads the entry of a channel without data. -/
theorem copyLoop_congr {results results' : List (Int × ChannelPacketData)}
    (h : AgreeOnData results results') :
    ∀ index entries, copyLoop results' index entries = copyLoop results index entries := by
  induction h with
  | nil => intro _ _; rfl
  | @cons r r' _ _ hr _ ih =>
    intro index entries
    obtain ⟨hbits, hdata⟩ := hr
    obtain ⟨bits, data⟩ := r
    obtain ⟨bits', data'⟩ := r'
    dsimp only at hbits hdata
    subst hbits
    by_cases hpos : 0 < bits
    · simp only [copyLoop, if_pos hpos, hdata hpos, ih]
    · simp only [copyLoop, if_neg hpos, ih]

theorem numChannelsWithData_congr {results results' : List (Int × ChannelPacketData)}
    (h : AgreeOnData results results') : numChannelsWithData results' = numChannelsWithData results := by
  unfold numChannelsWithData
  congr 1
  induction h with
  | nil => rfl
  | cons hr _ ih => simp only [List.filter_cons, hr.1]; split <;> simp [ih]

theorem assemblePacket_congr {results results' : List (Int × ChannelPacketData)}
    (h : AgreeOnData results results') (f : MessageFactory) :
    assemblePacket results' f = assemblePacket results f := by
  unfold assemblePacket
  simp only [numChannelsWithData_congr h, copyLoop_congr h]

/-- The packet assembled from the results of the budget loop, for each outcome: with data and a
successful allocation, the entries of the channels with data in id order; with a failed one, no
array; with more channels with data than `AllocateChannelData` accepts, an assert; with no data, a
new packet. -/
theorem assemblePacket_eq (results : List (Int × ChannelPacketData)) (f : MessageFactory) :
    assemblePacket results f =
      if 0 < numChannelsWithData results then
        if numChannelsWithData results ≤ MaxChannels then
          if f.allocator.succeeds f.allocator.next then
            some (true, ⟨numChannelsWithData results, some ⟨f.allocator.next, dataOf results⟩, true⟩,
              { f with allocator := f.allocator.allocate.2 })
          else some (false, ⟨0, none, true⟩, { f with allocator := f.allocator.allocate.2 })
        else none
      else some (true, ConnectionPacket.new, f) := by
  unfold assemblePacket
  split_ifs with hpos hmax halloc
  · simp [ConnectionPacket.allocateChannelData, hpos, hmax, Allocator.allocate, halloc,
      ConnectionPacket.new, copyLoop_replicate]
  · simp [ConnectionPacket.allocateChannelData, hpos, hmax, Allocator.allocate, halloc,
      ConnectionPacket.new]
  · simp [ConnectionPacket.allocateChannelData, hmax]
  · rfl

theorem assemblePacket_true {results : List (Int × ChannelPacketData)} {f f' : MessageFactory}
    {packet : ConnectionPacket} (h : assemblePacket results f = some (true, packet, f')) :
    packet.numChannelEntries = numChannelsWithData results ∧
      packet.channelEntries = some (dataOf results) ∧
      ∀ array, packet.channelEntry = some array → array.entries = dataOf results := by
  have hlen := length_dataOf results
  rw [assemblePacket_eq] at h
  split_ifs at h with hpos <;> cases h
  · exact ⟨rfl, by simp [ConnectionPacket.channelEntries, Int.not_le.mpr hpos, ← hlen],
      fun array h => by cases h; rfl⟩
  · have hzero : dataOf results = [] := List.eq_nil_of_length_eq_zero (by omega)
    exact ⟨by simp [ConnectionPacket.new]; omega,
      by simp [ConnectionPacket.channelEntries, ConnectionPacket.new, hzero], fun array h => by cases h⟩

theorem assemblePacket_some {results : List (Int × ChannelPacketData)} {f f' : MessageFactory}
    {ok : Bool} {packet : ConnectionPacket} (h : assemblePacket results f = some (ok, packet, f')) :
    f' = (if 0 < numChannelsWithData results then { f with allocator := f.allocator.allocate.2 }
      else f) ∧
    (ok = false ↔ 0 < numChannelsWithData results ∧ f.allocator.succeeds f.allocator.next = false) := by
  rw [assemblePacket_eq] at h
  split_ifs at h with hpos hmax halloc
  · cases h; simp [hpos, halloc]
  · cases h; simp [hpos, halloc]
  · cases h; simp [hpos]

section

variable {σ : Type} (ops : ChannelOps σ)
  (conservativeConnectionPacketHeaderEstimate conservativeChannelHeaderEstimate : Int)
  (magic : UInt32) (serializeEntry : EntrySerializer WriteStream)

/-- What a `GeneratePacket` that returns did: it assembled a packet from the results of the budget
loop, and the connection keeps the channels the loop left. After a failed allocation nothing is
written and the factory is the one the assembly left; after a successful one what is written is
what `WritePacket` wrote of the packet, and the factory is the one `WritePacket` left, since the
packet's destructor gives nothing back. -/
theorem generatePacket_assembled {conn conn' : Connection σ} {packetSequence : UInt16}
    {maxPacketBytes : Int} {ok : Bool} {written : Option (Int × List Bool)}
    (h : generatePacket ops conservativeConnectionPacketHeaderEstimate conservativeChannelHeaderEstimate
      magic serializeEntry conn packetSequence maxPacketBytes = some (ok, written, conn')) :
    let loop := budgetLoop ops conservativeChannelHeaderEstimate packetSequence conn.channel
      conn.messageFactory
      (cInt (cInt (maxPacketBytes * 8) - conservativeConnectionPacketHeaderEstimate))
    ∃ packet f, assemblePacket loop.1 loop.2.2.1 = some (ok, packet, f) ∧ conn'.channel = loop.2.1 ∧
      (ok = false → written = none ∧ conn'.messageFactory = f) ∧
      (ok = true → ∃ packetBytes buffer packet' f',
        writePacket magic serializeEntry f conn.connectionConfig packet maxPacketBytes =
          some (packetBytes, buffer, packet', f') ∧ written = some (packetBytes, buffer) ∧
          conn'.messageFactory = f') := by
  have hpos : 0 < conn.connectionConfig.numChannels := by have := conn.one_le_numChannels; omega
  unfold generatePacket at h
  rw [if_pos hpos] at h
  dsimp only at h ⊢
  split at h
  · cases h
  · rename_i packet f ha
    simp only [Option.some.injEq, Prod.mk.injEq] at h
    obtain ⟨rfl, rfl, rfl⟩ := h
    exact ⟨packet, f, ha, rfl, fun _ => ⟨rfl, rfl⟩, (nomatch ·)⟩
  · rename_i packet f ha
    obtain ⟨⟨packetBytes, buffer, packet', f'⟩, hw, h⟩ := Option.map_eq_some'.mp h
    simp only [Prod.mk.injEq] at h
    obtain ⟨rfl, rfl, rfl⟩ := h
    exact ⟨packet, f, ha, rfl, (nomatch ·), fun _ => ⟨packetBytes, buffer, packet', f', hw, rfl, rfl⟩⟩

theorem generatePacket_written {conn : Connection σ} {packetSequence : UInt16} {maxPacketBytes : Int}
    {packet : ConnectionPacket} {f : MessageFactory}
    (ha : assemblePacket
      (budgetLoop ops conservativeChannelHeaderEstimate packetSequence conn.channel conn.messageFactory
        (cInt (cInt (maxPacketBytes * 8) - conservativeConnectionPacketHeaderEstimate))).1
      (budgetLoop ops conservativeChannelHeaderEstimate packetSequence conn.channel conn.messageFactory
        (cInt (cInt (maxPacketBytes * 8) - conservativeConnectionPacketHeaderEstimate))).2.2.1 =
      some (true, packet, f)) :
    (generatePacket ops conservativeConnectionPacketHeaderEstimate conservativeChannelHeaderEstimate
        magic serializeEntry conn packetSequence maxPacketBytes).map (·.2.1) =
      (writePacket magic serializeEntry f conn.connectionConfig packet maxPacketBytes).map
        fun r => some (r.1, r.2.1) := by
  have hpos : 0 < conn.connectionConfig.numChannels := by have := conn.one_le_numChannels; omega
  unfold generatePacket
  rw [if_pos hpos]
  dsimp only
  rw [ha]
  simp only [Option.map_map]
  rfl

/-- For every connection and whatever its channels return, when the allocation succeeds the packet
`GeneratePacket` passes to `WritePacket` holds as many entries as there are channels with data,
and they are the entries of those channels in id order: every copy lands in the array, and the
entry of a channel without data is never read, so whatever it holds the same packet is
assembled. -/
theorem assemblePacket_entries (conn : Connection σ) (packetSequence : UInt16) (maxPacketBytes : Int)
    {results : List (Int × ChannelPacketData)} {channel : List σ} {f₀ : MessageFactory}
    {availableBits : Int}
    (hloop : budgetLoop ops conservativeChannelHeaderEstimate packetSequence conn.channel
      conn.messageFactory (cInt (cInt (maxPacketBytes * 8) - conservativeConnectionPacketHeaderEstimate)) =
        (results, channel, f₀, availableBits))
    (halloc : f₀.allocator.succeeds f₀.allocator.next = true) :
    ∃ packet f, assemblePacket results f₀ = some (true, packet, f) ∧
      packet.numChannelEntries = numChannelsWithData results ∧
      packet.channelEntries = some (dataOf results) ∧
      (∀ array, packet.channelEntry = some array → array.entries = dataOf results) ∧
      (∀ results', AgreeOnData results results' → assemblePacket results' f₀ = some (true, packet, f)) ∧
      (generatePacket ops conservativeConnectionPacketHeaderEstimate conservativeChannelHeaderEstimate
          magic serializeEntry conn packetSequence maxPacketBytes).map (·.2.1) =
        (writePacket magic serializeEntry f conn.connectionConfig packet maxPacketBytes).map
          fun r => some (r.1, r.2.1) := by
  -- no more channels have data than the connection has channels
  have hlength : (results.length : Int) ≤ MaxChannels := by
    have hlen := (length_budgetLoop ops conservativeChannelHeaderEstimate packetSequence conn.channel
      conn.messageFactory (cInt (cInt (maxPacketBytes * 8) - conservativeConnectionPacketHeaderEstimate))).1
    simp only [hloop] at hlen
    have := conn.length_channel
    have := conn.numChannels_le
    have := conn.one_le_numChannels
    omega
  obtain ⟨packet, f, ha⟩ : ∃ packet f, assemblePacket results f₀ = some (true, packet, f) := by
    rw [assemblePacket_eq, if_pos (Int.le_trans (numChannelsWithData_le_length results) hlength),
      if_pos halloc]
    split_ifs <;> exact ⟨_, _, rfl⟩
  obtain ⟨hnum, hentries, harray⟩ := assemblePacket_true ha
  exact ⟨packet, f, ha, hnum, hentries, harray, fun results' h => (assemblePacket_congr h f₀).trans ha,
    generatePacket_written ops _ _ magic serializeEntry (by rw [hloop]; exact ha)⟩

theorem assemblePacket_entries_three_channels :
    let ops : ChannelOps Nat := ⟨fun _ channelId => channelId, fun _ channelId => channelId,
      fun c f _ _ => (if c = 1 then 0 else 8, ⟨c, false, false, [c]⟩, c, f),
      fun c f _ => (c, f), fun c _ => c, fun c f => (c, f)⟩
    let conn : Connection Nat := ⟨MessageFactory.new ⟨[], 0, fun _ => true⟩ 1 .messageFactory,
      ⟨3, fun _ => ⟨.reliableOrdered⟩⟩, [0, 1, 2], by decide, by decide, rfl⟩
    let results : List (Int × ChannelPacketData) :=
      [(8, ⟨0, false, false, [0]⟩), (0, ⟨1, false, false, [1]⟩), (8, ⟨2, false, false, [2]⟩)]
    ∃ channel f₀ availableBits,
      (budgetLoop ops 32 0 conn.channel conn.messageFactory (cInt (cInt (100 * 8) - 16)) =
          (results, channel, f₀, availableBits) ∧ f₀.allocator.succeeds f₀.allocator.next = true) ∧
      ∃ packet f, assemblePacket results f₀ = some (true, packet, f) ∧
        packet.numChannelEntries = numChannelsWithData results ∧
        packet.channelEntries = some (dataOf results) ∧
        (∀ array, packet.channelEntry = some array → array.entries = dataOf results) ∧
        (∀ results', AgreeOnData results results' → assemblePacket results' f₀ = some (true, packet, f)) ∧
        (generatePacket ops 16 32 0x12345678 (fun _ s e => (true, s, e)) conn 0 100).map (·.2.1) =
          (writePacket 0x12345678 (fun _ s e => (true, s, e)) f conn.connectionConfig packet 100).map
            fun r => some (r.1, r.2.1) := by
  intro ops conn results
  obtain ⟨channel, f₀, availableBits, hloop⟩ : ∃ channel f₀ availableBits,
      budgetLoop ops 32 0 conn.channel conn.messageFactory (cInt (cInt (100 * 8) - 16)) =
        (results, channel, f₀, availableBits) := ⟨_, _, _, by simp only [ops, conn, results]; rfl⟩
  have halloc : f₀.allocator.succeeds f₀.allocator.next = true := by
    have hf₀ := congrArg (·.2.2.1) hloop
    simp only [ops, conn] at hf₀
    rw [← hf₀]
    rfl
  exact ⟨channel, f₀, availableBits, ⟨hloop, halloc⟩,
    assemblePacket_entries ops 16 32 0x12345678 (fun _ s e => (true, s, e)) conn 0 100 hloop halloc⟩

end

end Connection

end Yojimbo
