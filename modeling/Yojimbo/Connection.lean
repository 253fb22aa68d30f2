import Yojimbo.ConnectionPacket
/-!
# Connections

`Connection` of `yojimbo_connection.cpp`: the channels of a connection configuration and the
message factory they share. `GeneratePacket` offers each channel, in id order, what is left of the
packet's bit budget; it then copies the data of the channels that returned some into the entries
of a new `ConnectionPacket` and writes that packet with `WritePacket`. `ProcessAcks`,
`AdvanceTime` and `Reset` forward to every channel, and `ProcessPacket` is a `todo` that returns
`true`.

The channels are declared in `yojimbo_channel.h`, which is not among the sources, so what a
connection calls of them is the parameter `ChannelOps`. The two header estimates of
`yojimbo_config.h`, and the magic value and entry serializer that `WritePacket` uses, are
parameters too. `GeneratePacket` is split at its loops: `budgetLoop`, `assemblePacket` (with
`copyLoop`), then `WritePacket`; the modules that follow reason about each part.
-/

namespace Yojimbo

/-- Modelled from the spec: the channels (`yojimbo_channel.h`) are not in the sources. What a
connection calls of a channel whose state is `σ`: the constructors of the two channel types;
`GetPacketData`, which fills an entry with what the channel sends in a packet within
`availableBits` and returns its bit count (at most zero for nothing), and which may take message
references through the shared factory; `ProcessAck` and `Reset`, which may release messages
through it; and `AdvanceTime`. -/
structure ChannelOps (σ : Type) where
  reliableOrdered : ChannelConfig → Nat → σ
  unreliableUnordered : ChannelConfig → Nat → σ
  getPacketData : σ → MessageFactory → UInt16 → Int → Int × ChannelPacketData × σ × MessageFactory
  processAck : σ → MessageFactory → UInt16 → σ × MessageFactory
  advanceTime : σ → Float → σ
  reset : σ → MessageFactory → σ × MessageFactory

/-- A `Connection`: its message factory, its configuration, and `m_channel[0 .. numChannels)`.
The asserts of the constructor are fields, so every connection has between one and `MaxChannels`
channels. -/
structure Connection (σ : Type) where
  messageFactory : MessageFactory
  connectionConfig : ConnectionConfig
  channel : List σ
  one_le_numChannels : 1 ≤ connectionConfig.numChannels
  numChannels_le : connectionConfig.numChannels ≤ MaxChannels
  length_channel : channel.length = connectionConfig.numChannels.toNat

namespace Connection

variable {σ : Type} (ops : ChannelOps σ)

/-- The channel the `switch` of the constructor makes for a channel configuration. -/
def createChannel (channelConfig : ChannelConfig) (channelId : Nat) : σ :=
  match channelConfig.type with
  | .reliableOrdered => ops.reliableOrdered channelConfig channelId
  | .unreliableUnordered => ops.unreliableUnordered channelConfig channelId

/-- `Connection( allocator, messageFactory, connectionConfig )`: the asserts on `numChannels`, then
one channel per id. -/
def new (messageFactory : MessageFactory) (connectionConfig : ConnectionConfig) :
    Option (Connection σ) :=
  if h : 1 ≤ connectionConfig.numChannels ∧ connectionConfig.numChannels ≤ MaxChannels then
    some
      { messageFactory := messageFactory
        connectionConfig := connectionConfig
        channel := (List.range connectionConfig.numChannels.toNat).map fun channelId =>
          createChannel ops (connectionConfig.channel channelId) channelId
        one_le_numChannels := h.1
        numChannels_le := h.2
        length_channel := by simp }
  else none

/-- The connection with its channels replaced by as many others. -/
def withChannels (conn : Connection σ) (channel : List σ) (h : channel.length = conn.channel.length) :
    Connection σ :=
  { conn with channel := channel, length_channel := h.trans conn.length_channel }

@[simp] theorem withChannels_channel (conn : Connection σ) (channel : List σ) (h) :
    (conn.withChannels channel h).channel = channel := rfl

@[simp] theorem withChannels_messageFactory (conn : Connection σ) (channel : List σ) (h) :
    (conn.withChannels channel h).messageFactory = conn.messageFactory := rfl

@[simp] theorem withChannels_connectionConfig (conn : Connection σ) (channel : List σ) (h) :
    (conn.withChannels channel h).connectionConfig = conn.connectionConfig := rfl

/-! ### `GeneratePacket` -/

/-- The first loop of `GeneratePacket`: each channel in id order is offered `availableBits`, and
one whose `GetPacketData` returns a positive bit count then has the channel header estimate and
those bits taken off `availableBits`. The bit count and entry of each channel in id order, the
channels and the factory after the loop, and what is left of `availableBits`. -/
def budgetLoop (conservativeChannelHeaderEstimate : Int) (packetSequence : UInt16) :
    List σ → MessageFactory → Int →
      List (Int × ChannelPacketData) × List σ × MessageFactory × Int
  | [], f, availableBits => ([], [], f, availableBits)
  | c :: cs, f, availableBits =>
    let (packetDataBits, data, c, f) := ops.getPacketData c f packetSequence availableBits
    let availableBits :=
      if 0 < packetDataBits then
        cInt (cInt (availableBits - conservativeChannelHeaderEstimate) - packetDataBits)
      else availableBits
    let (results, cs, f, availableBits) :=
      budgetLoop conservativeChannelHeaderEstimate packetSequence cs f availableBits
    ((packetDataBits, data) :: results, c :: cs, f, availableBits)

theorem length_budgetLoop (conservativeChannelHeaderEstimate : Int) (packetSequence : UInt16) :
    ∀ (cs : List σ) (f : MessageFactory) (availableBits : Int),
      (budgetLoop ops conservativeChannelHeaderEstimate packetSequence cs f availableBits).1.length =
        cs.length ∧
      (budgetLoop ops conservativeChannelHeaderEstimate packetSequence cs f availableBits).2.1.length =
        cs.length
  | [], _, _ => ⟨rfl, rfl⟩
  | _ :: cs, _, _ => by
    simp only [budgetLoop, List.length_cons, Nat.add_right_cancel_iff]
    exact length_budgetLoop _ _ cs _ _

theorem budgetLoop_cons (conservativeChannelHeaderEstimate : Int) (packetSequence : UInt16) (c : σ)
    (cs : List σ) (f : MessageFactory) (availableBits : Int) :
    budgetLoop ops conservativeChannelHeaderEstimate packetSequence (c :: cs) f availableBits =
      let r := ops.getPacketData c f packetSequence availableBits
      let loop := budgetLoop ops conservativeChannelHeaderEstimate packetSequence cs r.2.2.2
        (if 0 < r.1 then cInt (cInt (availableBits - conservativeChannelHeaderEstimate) - r.1)
          else availableBits)
      ((r.1, r.2.1) :: loop.1, r.2.2.1 :: loop.2.1, loop.2.2.1, loop.2.2.2) := rfl

theorem budgetLoop_cons_eq {conservativeChannelHeaderEstimate : Int} {packetSequence : UInt16}
    {c : σ} {cs cs' : List σ} {f f' : MessageFactory} {availableBits final : Int}
    {results : List (Int × ChannelPacketData)}
    (h : budgetLoop ops conservativeChannelHeaderEstimate packetSequence (c :: cs) f availableBits =
      (results, cs', f', final)) :
    ∃ packetDataBits data c₁ f₁ results₁ cs₁,
      ops.getPacketData c f packetSequence availableBits = (packetDataBits, data, c₁, f₁) ∧
      budgetLoop ops conservativeChannelHeaderEstimate packetSequence cs f₁
        (if 0 < packetDataBits then
          cInt (cInt (availableBits - conservativeChannelHeaderEstimate) - packetDataBits)
        else availableBits) = (results₁, cs₁, f', final) ∧
      results = (packetDataBits, data) :: results₁ ∧ cs' = c₁ :: cs₁ := by
  rw [budgetLoop_cons] at h
  simp only [Prod.mk.injEq] at h
  obtain ⟨rfl, rfl, rfl, rfl⟩ := h
  exact ⟨_, _, _, _, _, _, rfl, rfl, rfl, rfl⟩

/-- `numChannelsWithData`: the channels that returned a positive bit count. -/
def numChannelsWithData (results : List (Int × ChannelPacketData)) : Int :=
  (results.filter (0 < ·.1)).length

/-- The second loop of `GeneratePacket`: the entry of each channel with data, in id order, is
copied to `channelEntry[index]`, and `index` moves on. A copy past the end of the array stops the
program. -/
def copyLoop : List (Int × ChannelPacketData) → Nat → List ChannelPacketData →
    Option (List ChannelPacketData)
  | [], _, entries => some entries
  | (packetDataBits, data) :: results, index, entries =>
    if 0 < packetDataBits then
      if index < entries.length then copyLoop results (index + 1) (entries.set index data)
      else none
    else copyLoop results index entries

/-- The packet `GeneratePacket` builds from the results of the first loop: for channels with data,
`AllocateChannelData` and the copy loop. `false` is a failed allocation. -/
def assemblePacket (results : List (Int × ChannelPacketData)) (f : MessageFactory) :
    Option (Bool × ConnectionPacket × MessageFactory) :=
  if 0 < numChannelsWithData results then
    match ConnectionPacket.new.allocateChannelData f (numChannelsWithData results) with
    | none => none
    | some (false, packet, f) => some (false, packet, f)
    | some (true, packet, f) =>
      match packet.channelEntry with
      | none => none
      | some array =>
        (copyLoop results 0 array.entries).map fun entries =>
          (true, { packet with channelEntry := some { array with entries := entries } }, f)
  else some (true, ConnectionPacket.new, f)

variable (conservativeConnectionPacketHeaderEstimate conservativeChannelHeaderEstimate : Int)
  (magic : UInt32) (serializeEntry : EntrySerializer WriteStream)

/-- `GeneratePacket`: its result, the `packetBytes` and buffer that `WritePacket` wrote (`none`
when it did not run), and the connection after it, whose factory is the one `WritePacket` leaves.
The packet's destructor runs on both returns. `none` is an assert. -/
def generatePacket (conn : Connection σ) (packetSequence : UInt16) (maxPacketBytes : Int) :
    Option (Bool × Option (Int × List Bool) × Connection σ) :=
  if 0 < conn.connectionConfig.numChannels then
    let availableBits :=
      cInt (cInt (maxPacketBytes * 8) - conservativeConnectionPacketHeaderEstimate)
    let loop := budgetLoop ops conservativeChannelHeaderEstimate packetSequence conn.channel
      conn.messageFactory availableBits
    let conn := conn.withChannels loop.2.1 (length_budgetLoop ops _ _ _ _ _).2
    match assemblePacket loop.1 loop.2.2.1 with
    | none => none
    | some (false, packet, f) => some (false, none, { conn with messageFactory := packet.destroy f })
    | some (true, packet, f) =>
      (writePacket magic serializeEntry f conn.connectionConfig packet maxPacketBytes).map
        fun (packetBytes, buffer, packet, f) =>
          (true, some (packetBytes, buffer), { conn with messageFactory := packet.destroy f })
  else
    (writePacket magic serializeEntry conn.messageFactory conn.connectionConfig .new
        maxPacketBytes).map fun (packetBytes, buffer, packet, f) =>
      (true, some (packetBytes, buffer), { conn with messageFactory := packet.destroy f })

/-! ### The other operations -/

/-- `ProcessPacket`: a `todo` that reads nothing and returns `true`. -/
def processPacket (conn : Connection σ) (_packetSequence : UInt16) (_packetData : List Bool) :
    Bool × Connection σ :=
  (true, conn)

/-- A loop over the channels in id order whose step may act on the shared factory. -/
def forChannels (step : σ → MessageFactory → σ × MessageFactory) :
    List σ → MessageFactory → List σ × MessageFactory
  | [], f => ([], f)
  | c :: cs, f =>
    let (c, f) := step c f
    let (cs, f) := forChannels step cs f
    (c :: cs, f)

theorem length_forChannels (step : σ → MessageFactory → σ × MessageFactory) :
    ∀ (cs : List σ) (f : MessageFactory), (forChannels step cs f).1.length = cs.length
  | [], _ => rfl
  | _ :: cs, _ => congrArg (· + 1) (length_forChannels step cs _)

/-- The channels and the factory after the loops of `ProcessAcks`: for every ack in order, every
channel. -/
def ackChannels (channel : List σ) (f : MessageFactory) (acks : List UInt16) :
    List σ × MessageFactory :=
  acks.foldl (fun (channel, f) ack => forChannels (ops.processAck · · ack) channel f) (channel, f)

theorem length_ackChannels (acks : List UInt16) :
    ∀ (channel : List σ) (f : MessageFactory), (ackChannels ops channel f acks).1.length = channel.length := by
  induction acks with
  | nil => intro channel f; rfl
  | cons ack acks ih => intro channel f; exact (ih _ _).trans (length_forChannels _ _ _)

/-- `ProcessAcks( acks, numAcks )`, with the first `numAcks` acks. -/
def processAcks (conn : Connection σ) (acks : List UInt16) : Connection σ :=
  let r := ackChannels ops conn.channel conn.messageFactory acks
  { conn.withChannels r.1 (length_ackChannels ops acks _ _) with messageFactory := r.2 }

/-- `AdvanceTime`: every channel, in id order. -/
def advanceTime (conn : Connection σ) (time : Float) : Connection σ :=
  conn.withChannels (conn.channel.map (ops.advanceTime · time)) (List.length_map _ _)

/-- `Reset`: every channel, in id order. -/
def reset (conn : Connection σ) : Connection σ :=
  let r := forChannels ops.reset conn.channel conn.messageFactory
  { conn.withChannels r.1 (length_forChannels _ _ _) with messageFactory := r.2 }

end Connection

end Yojimbo
