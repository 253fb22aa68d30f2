import Yojimbo.Stream
import Yojimbo.Message
/-!
# Connection packets

`ConnectionPacket` of `yojimbo_connection.cpp`: a count, `numChannelEntries`, and a pointer,
`channelEntry`, to an array of `ChannelPacketData` on a block of the message factory's allocator.
`AllocateChannelData` takes that block and initialises its entries, `Serialize` reads, writes or
measures the count and then each entry, and the destructor is a `todo`.

The entries and the connection configuration are declared in headers that are not among the
sources, so they are modelled from the spec, with only the fields the modelled code reads.
`ChannelPacketData::SerializeInternal` is a parameter of `serialize`, one per stream, and acts on
the stream and the message factory that `Serialize` hands it: the round trip of `RoundTrip`
assumes of it only the per-entry contract.

Indexing past the array, or through a `NULL` `channelEntry`, stops the program like a failing
`assert`: both are a `none` result.
-/

namespace Yojimbo

/-- Modelled from the spec: `ChannelType` (yojimbo_config.h) is not in the sources. -/
inductive ChannelType
  | reliableOrdered
  | unreliableUnordered
  deriving DecidableEq

/-- Modelled from the spec: `ChannelConfig` is not in the sources; of its fields the modelled code
reads only `type`. -/
structure ChannelConfig where
  type : ChannelType
  deriving DecidableEq

/-- Modelled from the spec: `ConnectionConfig` is not in the sources; of its fields the modelled
code reads `numChannels` and the array `channel[MaxChannels]`, read below `numChannels`. -/
structure ConnectionConfig where
  numChannels : Int
  channel : Nat → ChannelConfig

/-- Modelled from the spec: `ChannelPacketData` (yojimbo_channel.h) is not in the sources. The
channel, the kind of payload, the flag a failed message read sets, and the messages the payload
holds a reference to. -/
structure ChannelPacketData where
  channelId : Int
  blockMessage : Bool
  messageFailedToSerialize : Bool
  messages : List Nat
  deriving DecidableEq

/-- Modelled from the spec: `ChannelPacketData::Initialize` is not in the sources. An empty entry,
not marked `messageFailedToSerialize`, which the sources assert right after it. -/
def ChannelPacketData.initial : ChannelPacketData := ⟨0, false, false, []⟩

@[simp] theorem ChannelPacketData.initial_messageFailedToSerialize :
    ChannelPacketData.initial.messageFailedToSerialize = false := rfl

/-- The array `channelEntry` points to: the block it is on and its entries. -/
structure ChannelEntryArray where
  address : Nat
  entries : List ChannelPacketData
  deriving DecidableEq

/-- Modelled from the spec: `ChannelPacketData::SerializeInternal` (yojimbo_channel.h) is not in
the sources. On a stream `S`, with the channel configurations and `numChannels` of the connection
configuration: `Serialize` hands it the stream and the message factory, both by reference, so it
acts on the pair, and a read may create messages through the factory or fail on it. -/
abbrev EntrySerializer (S : Type) : Type :=
  ConnectionConfig → S × MessageFactory → ChannelPacketData →
    Bool × (S × MessageFactory) × ChannelPacketData

/-- The entry serialization on each of the three streams. -/
structure EntryCodec where
  read : EntrySerializer ReadStream
  write : EntrySerializer WriteStream
  measure : EntrySerializer MeasureStream

/-- A `ConnectionPacket`: `numChannelEntries`, `channelEntry` (`none` is `NULL`), and whether the
cached `messageFactory` is set. -/
structure ConnectionPacket where
  numChannelEntries : Int
  channelEntry : Option ChannelEntryArray
  messageFactory : Bool
  deriving DecidableEq

namespace ConnectionPacket

/-- `ConnectionPacket()`. -/
def new : ConnectionPacket := ⟨0, none, false⟩

/-- The entries a loop over `numChannelEntries` reaches, `none` when it would go through `NULL` or
past the array. -/
def channelEntries (p : ConnectionPacket) : Option (List ChannelPacketData) :=
  if p.numChannelEntries ≤ 0 then some []
  else
    match p.channelEntry with
    | some array =>
      if p.numChannelEntries.toNat ≤ array.entries.length then
        some (array.entries.take p.numChannelEntries.toNat)
      else none
    | none => none

theorem channelEntries_length {p : ConnectionPacket} {entries : List ChannelPacketData}
    (h : p.channelEntries = some entries) : entries.length = p.numChannelEntries.toNat := by
  unfold channelEntries at h
  split_ifs at h with hle
  · cases h
    exact (Int.toNat_eq_zero.mpr hle).symm
  · split at h
    · split_ifs at h with hlen
      cases h
      exact List.length_take_of_le hlen
    · cases h

/-- `~ConnectionPacket`: when `messageFactory` is set the body is a `todo`, so the destructor
releases no message and frees no block. -/
def destroy (_ : ConnectionPacket) (f : MessageFactory) : MessageFactory := f

/-- `AllocateChannelData`: the two asserts on `numEntries`, then a block of the factory's
allocator for the array. On success the entries are initialised and counted; on failure
`channelEntry` is `NULL` and `false` is returned. -/
def allocateChannelData (p : ConnectionPacket) (f : MessageFactory) (numEntries : Int) :
    Option (Bool × ConnectionPacket × MessageFactory) :=
  if 0 < numEntries ∧ numEntries ≤ MaxChannels then
    match f.allocator.allocate with
    | (none, allocator) =>
      some (false, { p with messageFactory := true, channelEntry := none },
        { f with allocator := allocator })
    | (some address, allocator) =>
      some (true, { p with
          messageFactory := true
          channelEntry := some ⟨address, List.replicate numEntries.toNat .initial⟩
          numChannelEntries := numEntries },
        { f with allocator := allocator })
  else none

/-- The loop of `Serialize` over the entries: the assert on `messageFailedToSerialize`, then
`SerializeInternal`, whose result entry is stored back; an entry that fails ends the loop with
`false`. -/
def serializeEntries {S : Type} (serializeEntry : S → ChannelPacketData → Bool × S × ChannelPacketData) :
    S → List ChannelPacketData → Option (Bool × S × List ChannelPacketData)
  | s, [] => some (true, s, [])
  | s, e :: es =>
    if e.messageFailedToSerialize then none
    else
      match serializeEntry s e with
      | (false, s, e) => some (false, s, e :: es)
      | (true, s, e) => (serializeEntries serializeEntry s es).map fun (ok, s, es) => (ok, s, e :: es)

theorem serializeEntries_cons_of_ok {S : Type}
    {se : S → ChannelPacketData → Bool × S × ChannelPacketData} {s s₁ : S} {e e₁ : ChannelPacketData}
    {es : List ChannelPacketData} (hflag : e.messageFailedToSerialize = false)
    (h : se s e = (true, s₁, e₁)) :
    serializeEntries se s (e :: es) =
      (serializeEntries se s₁ es).map fun r => (r.1, r.2.1, e₁ :: r.2.2) := by
  simp only [serializeEntries, hflag, Bool.false_eq_true, if_false, h]

theorem serializeEntries_cons_true {S : Type}
    {se : S → ChannelPacketData → Bool × S × ChannelPacketData} {s s' : S} {e : ChannelPacketData}
    {es es' : List ChannelPacketData} (h : serializeEntries se s (e :: es) = some (true, s', es')) :
    e.messageFailedToSerialize = false ∧ ∃ s₁ e₁ es₁, se s e = (true, s₁, e₁) ∧
      serializeEntries se s₁ es = some (true, s', es₁) ∧ es' = e₁ :: es₁ := by
  unfold serializeEntries at h
  split at h
  · cases h
  · rename_i hflag
    rcases hse : se s e with ⟨_ | _, s₁, e₁⟩ <;> rw [hse] at h
    · simp at h
    · obtain ⟨⟨ok, s₂, es₂⟩, hrest, hr⟩ := Option.map_eq_some'.mp h
      simp only [Prod.mk.injEq] at hr
      obtain ⟨rfl, rfl, rfl⟩ := hr
      exact ⟨by simpa using hflag, s₁, e₁, es₂, rfl, hrest, rfl⟩

theorem serializeEntries_length {S : Type} {se : S → ChannelPacketData → Bool × S × ChannelPacketData} :
    ∀ {s s' : S} {es es' : List ChannelPacketData} {ok : Bool},
    serializeEntries se s es = some (ok, s', es') → es'.length = es.length
  | _, _, [], _, _, h => by
    simp only [serializeEntries, Option.some.injEq, Prod.mk.injEq] at h
    rw [← h.2.2]
  | s, _, e :: es, _, _, h => by
    unfold serializeEntries at h
    split at h
    · cases h
    · rcases hse : se s e with ⟨_ | _, s₁, e₁⟩ <;> rw [hse] at h
      · simp only [Option.some.injEq, Prod.mk.injEq] at h
        rw [← h.2.2]; rfl
      · obtain ⟨⟨ok, s₂, es₂⟩, hrest, hr⟩ := Option.map_eq_some'.mp h
        simp only [Option.some.injEq, Prod.mk.injEq] at hr
        rw [← hr.2.2, List.length_cons, List.length_cons, serializeEntries_length hrest]

theorem serializeEntries_isSome {S : Type} {se : S → ChannelPacketData → Bool × S × ChannelPacketData} :
    ∀ {s : S} {es : List ChannelPacketData},
    (∀ e ∈ es, e.messageFailedToSerialize = false) → (serializeEntries se s es).isSome
  | _, [], _ => rfl
  | s, e :: es, h => by
    have he : e.messageFailedToSerialize = false := h e (List.mem_cons_self _ _)
    simp only [serializeEntries, he, Bool.false_eq_true, if_false]
    rcases se s e with ⟨_ | _, s₁, e₁⟩
    · rfl
    · simpa using serializeEntries_isSome fun e' he' => h e' (List.mem_cons_of_mem _ he')

/-- The part of `Serialize` after the count, for a count `n > 0`: on read, `AllocateChannelData`
and its assert loop; then the loop over the first `n` entries of the array, each serialized with
the stream and the factory. -/
def serializeChannelEntries {S : Type} [Stream S]
    (serializeEntry : S × MessageFactory → ChannelPacketData → Bool × (S × MessageFactory) × ChannelPacketData)
    (p : ConnectionPacket) (f : MessageFactory) (n : Int) (s : S) :
    Option (Bool × S × ConnectionPacket × MessageFactory) :=
  match (if Stream.IsReading S then p.allocateChannelData f n else some (true, p, f)) with
  | none => none
  | some (false, p, f) => some (false, s, p, f)
  | some (true, p, f) =>
    match p.channelEntry with
    | none => none
    | some array =>
      if array.entries.length < n.toNat then none
      else if Stream.IsReading S && (array.entries.take n.toNat).any (·.messageFailedToSerialize) then
        none
      else
        (serializeEntries serializeEntry (s, f) (array.entries.take n.toNat)).map
          fun (ok, (s, f), entries) =>
            let array := { array with entries := entries ++ array.entries.drop n.toNat }
            (ok, s, { p with channelEntry := some array }, f)

/-- `Serialize`: `serialize_int` of `numChannelEntries` in `[0, numChannels]`, which stores the
count it reads even when it then returns `false`, then, for a positive count, the entries. -/
def serialize {S : Type} [Stream S] (serializeEntry : EntrySerializer S)
    (p : ConnectionPacket) (f : MessageFactory) (connectionConfig : ConnectionConfig) (s : S) :
    Option (Bool × S × ConnectionPacket × MessageFactory) :=
  match serializeInt s p.numChannelEntries 0 connectionConfig.numChannels with
  | none => none
  | some (false, s, n) => some (false, s, { p with numChannelEntries := n }, f)
  | some (true, s, n) =>
    if 0 < n then
      serializeChannelEntries (serializeEntry connectionConfig) { p with numChannelEntries := n } f n s
    else some (true, s, { p with numChannelEntries := n }, f)

end ConnectionPacket

/-- `WritePacket`: `Serialize` on a `WriteStream` over `bufferSize` bytes, then `SerializeCheck`
with the stream's `magic` value, then `Flush`. The byte count, `0` when either step fails, the
flushed buffer (no bits when nothing was flushed), and the packet and the factory after
`Serialize`. -/
def writePacket (magic : UInt32) (serializeEntry : EntrySerializer WriteStream)
    (messageFactory : MessageFactory) (connectionConfig : ConnectionConfig) (packet : ConnectionPacket)
    (bufferSize : Int) : Option (Int × List Bool × ConnectionPacket × MessageFactory) :=
  match packet.serialize serializeEntry messageFactory connectionConfig (WriteStream.new bufferSize) with
  | none => none
  | some (false, _, packet, messageFactory) => some (0, [], packet, messageFactory)
  | some (true, stream, packet, messageFactory) =>
    match stream.serializeCheck magic with
    | none => some (0, [], packet, messageFactory)
    | some stream => some (stream.getBytesProcessed, stream.flush, packet, messageFactory)

theorem writePacket_pos {magic : UInt32} {serializeEntry : EntrySerializer WriteStream}
    {f f' : MessageFactory} {config : ConnectionConfig} {p p' : ConnectionPacket}
    {bufferSize packetBytes : Int} {buffer : List Bool}
    (h : writePacket magic serializeEntry f config p bufferSize = some (packetBytes, buffer, p', f'))
    (hbytes : 0 < packetBytes) :
    ∃ w wc, p.serialize serializeEntry f config (WriteStream.new bufferSize) = some (true, w, p', f') ∧
      w.serializeCheck magic = some wc ∧ packetBytes = wc.getBytesProcessed ∧ buffer = wc.flush := by
  unfold writePacket at h
  split at h
  · cases h
  · cases h
    exact absurd hbytes (Int.lt_irrefl 0)
  · rename_i w packet f' hser
    split at h
    · cases h
      exact absurd hbytes (Int.lt_irrefl 0)
    · rename_i wc hcheck
      cases h
      exact ⟨w, wc, hser, hcheck, rfl, rfl⟩

end Yojimbo
