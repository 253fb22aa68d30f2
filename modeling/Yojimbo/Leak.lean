import Yojimbo.PacketAssembly
/-!
# What `GeneratePacket` leaves behind

`GeneratePacket` takes the entry array of its packet from the message factory's allocator, and the
entries hold the message references the channels took for the packet. Both are for the packet's
destructor to give back, and `~ConnectionPacket` is a `todo`: each packet with data leaves its
array and its references behind (`generatePacket_leaks`). `GeneratePacket` also returns `true`
whatever `WritePacket` wrote, `0` bytes after a failed write included.

When the channels and the entry writes leave the allocator alone, what one call does to it is
`generatePacket_allocator`: the array joins the outstanding blocks and nothing leaves them. So over
a run no block is freed (`generatePackets_outstanding`), and when the channels have data whenever
they are offered enough bits, the outstanding blocks grow by one per call (`generatePackets_leak`).
-/

namespace Yojimbo

namespace Connection

variable {σ : Type} (ops : ChannelOps σ)
  (conservativeConnectionPacketHeaderEstimate conservativeChannelHeaderEstimate : Int)
  (magic : UInt32) (serializeEntry : EntrySerializer WriteStream)

/-- A factory with one live message, and one channel that takes a reference to it for each packet
it fills. A packet of 100 bytes leaves its entry array outstanding and the packet's reference to
the message unreleased; and when the write of the entry fails, `WritePacket` writes `0` bytes and
the packet is still reported generated. -/
theorem generatePacket_leaks :
    let ops : ChannelOps Unit := ⟨fun _ _ => (), fun _ _ => (),
      fun c f _ availableBits => if 8 ≤ availableBits then
        (f.addRef 0).elim (0, .initial, c, f) fun f' => (8, ⟨0, false, false, [0]⟩, c, f')
      else (0, .initial, c, f),
      fun c f _ => (c, f), fun c _ => c, fun c f => (c, f)⟩
    ∃ f₁ written conn' conn'',
      (MessageFactory.new ⟨[], 0, fun _ => true⟩ 1 (.declare .messageFactory [(0, false)])).create 0 =
        some (0, f₁) ∧
      generatePacket ops 16 32 0x12345678 (fun _ s e => (true, s, e))
          ⟨f₁, ⟨1, fun _ => ⟨.reliableOrdered⟩⟩, [()], by decide, by decide, rfl⟩ 0 100 =
        some (true, written, conn') ∧
      conn'.messageFactory.allocator.outstanding = [1, 0] ∧
      (conn'.messageFactory.messages 0).map Message.refCount = some 2 ∧
      generatePacket ops 16 32 0x12345678 (fun _ s e => (false, s, e))
          ⟨f₁, ⟨1, fun _ => ⟨.reliableOrdered⟩⟩, [()], by decide, by decide, rfl⟩ 0 100 =
        some (true, some (0, []), conn'') :=
  ⟨_, _, _, _, rfl, rfl, rfl, rfl, rfl⟩

/-! ### What a write does to the factory -/

theorem serializeEntries_invariant {S : Type} {se : S → ChannelPacketData → Bool × S × ChannelPacketData}
    (P : S → Prop) (hstep : ∀ s e, P s → P (se s e).2.1) :
    ∀ {s s' : S} {es es' : List ChannelPacketData} {ok : Bool},
    P s → ConnectionPacket.serializeEntries se s es = some (ok, s', es') → P s'
  | _, _, [], _, _, hs, h => by
    simp only [ConnectionPacket.serializeEntries, Option.some.injEq, Prod.mk.injEq] at h
    exact h.2.1 ▸ hs
  | s, _, e :: es, _, _, hs, h => by
    unfold ConnectionPacket.serializeEntries at h
    split at h
    · cases h
    · have hs₁ := hstep s e hs
      rcases hse : se s e with ⟨_ | _, s₁, e₁⟩ <;> rw [hse] at h hs₁
      · simp only [Option.some.injEq, Prod.mk.injEq] at h
        exact h.2.1 ▸ hs₁
      · obtain ⟨⟨ok, s₂, es₂⟩, hrest, hr⟩ := Option.map_eq_some'.mp h
        simp only [Prod.mk.injEq] at hr
        exact hr.2.1 ▸ serializeEntries_invariant P hstep hs₁ hrest

theorem serialize_factory_invariant {S : Type} [Stream S] (hS : Stream.IsReading S = false)
    {se : EntrySerializer S} {p q : ConnectionPacket} {f f' : MessageFactory}
    {config : ConnectionConfig} {s s' : S} {ok : Bool} (P : MessageFactory → Prop)
    (hstep : ∀ s e, P s.2 → P (se config s e).2.1.2) (hf : P f)
    (h : p.serialize se f config s = some (ok, s', q, f')) : P f' := by
  unfold ConnectionPacket.serialize at h
  split at h
  · cases h
  · cases h; exact hf
  · split_ifs at h
    · simp only [ConnectionPacket.serializeChannelEntries, hS, Bool.false_eq_true, if_false, Bool.false_and] at h
      split at h
      · cases h
      · split_ifs at h
        obtain ⟨⟨ok₁, ⟨s₂, f₂⟩, es⟩, hloop, hr⟩ := Option.map_eq_some'.mp h
        simp only [Prod.mk.injEq] at hr
        exact hr.2.2.2 ▸ serializeEntries_invariant (fun x => P x.2) hstep hf hloop
    · cases h; exact hf

theorem writePacket_factory_invariant {f f' : MessageFactory} {config : ConnectionConfig}
    {p p' : ConnectionPacket} {bufferSize packetBytes : Int} {buffer : List Bool}
    (P : MessageFactory → Prop) (hstep : ∀ s e, P s.2 → P (serializeEntry config s e).2.1.2)
    (hf : P f) (h : writePacket magic serializeEntry f config p bufferSize =
      some (packetBytes, buffer, p', f')) : P f' := by
  unfold writePacket at h
  split at h
  · cases h
  · rename_i hser
    cases h
    exact serialize_factory_invariant rfl P hstep hf hser
  · rename_i hser
    split at h <;> (cases h; exact serialize_factory_invariant rfl P hstep hf hser)

/-! ### Runs -/

/-- A run of `GeneratePacket` calls on one connection, each with its packet sequence and
`maxPacketBytes`: the result of each call, and the connection after them. -/
def generatePackets :
    Connection σ → List (UInt16 × Int) → Option (List Bool × Connection σ)
  | conn, [] => some ([], conn)
  | conn, (packetSequence, maxPacketBytes) :: calls =>
    (generatePacket ops conservativeConnectionPacketHeaderEstimate conservativeChannelHeaderEstimate
        magic serializeEntry conn packetSequence maxPacketBytes).bind fun (ok, _, conn) =>
      (generatePackets conn calls).map fun (oks, conn) => (ok :: oks, conn)

theorem budgetLoop_allocator (conservativeChannelHeaderEstimate : Int) (packetSequence : UInt16)
    (hleave : ∀ c f packetSequence availableBits,
      (ops.getPacketData c f packetSequence availableBits).2.2.2.allocator = f.allocator) :
    ∀ (cs : List σ) (f : MessageFactory) (availableBits : Int),
      (budgetLoop ops conservativeChannelHeaderEstimate packetSequence cs f availableBits).2.2.1.allocator =
        f.allocator
  | [], _, _ => rfl
  | c :: cs, f, availableBits => by
    rw [budgetLoop_cons]
    exact (budgetLoop_allocator conservativeChannelHeaderEstimate packetSequence hleave cs _ _).trans
      (hleave c f packetSequence availableBits)

theorem numChannelsWithData_budgetLoop_pos {k : Int}
    (hdata : ∀ c f packetSequence availableBits, k ≤ availableBits →
      0 < (ops.getPacketData c f packetSequence availableBits).1)
    (conn : Connection σ) (packetSequence : UInt16) {availableBits : Int} (hk : k ≤ availableBits) :
    0 < numChannelsWithData (budgetLoop ops conservativeChannelHeaderEstimate packetSequence
      conn.channel conn.messageFactory availableBits).1 := by
  obtain ⟨c, cs, hchannel⟩ : ∃ c cs, conn.channel = c :: cs := by
    have hlength := conn.length_channel
    have := conn.one_le_numChannels
    cases h : conn.channel with
    | nil => rw [h, List.length_nil] at hlength; omega
    | cons c cs => exact ⟨c, cs, rfl⟩
  rw [hchannel, budgetLoop_cons]
  simp [numChannelsWithData, hdata _ _ _ _ hk]

/-- With channels and entry writes that leave the allocator alone, what one `GeneratePacket` does
to it: the packet's array joins the outstanding blocks when a channel had data and the allocation
succeeded, no block leaves them, and which attempts succeed does not change. -/
theorem generatePacket_allocator
    (hleave : ∀ c f packetSequence availableBits,
      (ops.getPacketData c f packetSequence availableBits).2.2.2.allocator = f.allocator)
    (hwrite : ∀ config s e, (serializeEntry config s e).2.1.2.allocator = s.2.allocator)
    {conn conn' : Connection σ} {packetSequence : UInt16} {maxPacketBytes : Int} {ok : Bool}
    {written : Option (Int × List Bool)}
    (h : generatePacket ops conservativeConnectionPacketHeaderEstimate
      conservativeChannelHeaderEstimate magic serializeEntry conn packetSequence maxPacketBytes =
        some (ok, written, conn')) :
    let results := (budgetLoop ops conservativeChannelHeaderEstimate packetSequence conn.channel
      conn.messageFactory
      (cInt (cInt (maxPacketBytes * 8) - conservativeConnectionPacketHeaderEstimate))).1
    let a := conn.messageFactory.allocator
    conn'.messageFactory.allocator.outstanding =
        (if 0 < numChannelsWithData results ∧ a.succeeds a.next = true then a.next :: a.outstanding
        else a.outstanding) ∧
      conn'.messageFactory.allocator.succeeds = a.succeeds := by
  obtain ⟨packet, f, ha, -, hfalse, htrue⟩ := generatePacket_assembled ops _ _ magic serializeEntry h
  -- the factory `WritePacket` leaves has the allocator the assembly left
  have hf : conn'.messageFactory.allocator = f.allocator := by
    cases ok
    · rw [(hfalse rfl).2]
    · obtain ⟨_, _, _, f', hw, -, rfl⟩ := htrue rfl
      exact writePacket_factory_invariant magic serializeEntry (·.allocator = f.allocator)
        (fun s e hs => (hwrite _ s e).trans hs) rfl hw
  have hloop := budgetLoop_allocator ops conservativeChannelHeaderEstimate packetSequence hleave
    conn.channel conn.messageFactory
    (cInt (cInt (maxPacketBytes * 8) - conservativeConnectionPacketHeaderEstimate))
  rw [hf, (assemblePacket_some ha).1]
  by_cases hpos : 0 < numChannelsWithData (budgetLoop ops conservativeChannelHeaderEstimate
    packetSequence conn.channel conn.messageFactory
    (cInt (cInt (maxPacketBytes * 8) - conservativeConnectionPacketHeaderEstimate))).1
  · simp [hpos, hloop]
  · simp [hpos, hloop]

theorem generatePacket_outstanding
    (hleave : ∀ c f packetSequence availableBits,
      (ops.getPacketData c f packetSequence availableBits).2.2.2.allocator = f.allocator)
    (hwrite : ∀ config s e, (serializeEntry config s e).2.1.2.allocator = s.2.allocator)
    {conn conn' : Connection σ} {packetSequence : UInt16} {maxPacketBytes : Int} {ok : Bool}
    {written : Option (Int × List Bool)}
    (h : generatePacket ops conservativeConnectionPacketHeaderEstimate
      conservativeChannelHeaderEstimate magic serializeEntry conn packetSequence maxPacketBytes =
        some (ok, written, conn')) :
    conn.messageFactory.allocator.outstanding <:+ conn'.messageFactory.allocator.outstanding := by
  rw [(generatePacket_allocator ops _ _ magic serializeEntry hleave hwrite h).1]
  split_ifs
  · exact List.suffix_cons _ _
  · exact List.suffix_refl _

theorem generatePackets_nil {conn conn' : Connection σ} {oks : List Bool}
    (h : generatePackets ops conservativeConnectionPacketHeaderEstimate
      conservativeChannelHeaderEstimate magic serializeEntry conn [] = some (oks, conn')) :
    conn' = conn := by
  simp only [generatePackets, Option.some.injEq, Prod.mk.injEq] at h
  exact h.2.symm

theorem generatePackets_cons {conn conn' : Connection σ} {packetSequence : UInt16}
    {maxPacketBytes : Int} {calls : List (UInt16 × Int)} {oks : List Bool}
    (h : generatePackets ops conservativeConnectionPacketHeaderEstimate
      conservativeChannelHeaderEstimate magic serializeEntry conn
        ((packetSequence, maxPacketBytes) :: calls) = some (oks, conn')) :
    ∃ ok written conn₁ oks₁, generatePacket ops conservativeConnectionPacketHeaderEstimate
        conservativeChannelHeaderEstimate magic serializeEntry conn packetSequence maxPacketBytes =
          some (ok, written, conn₁) ∧
      generatePackets ops conservativeConnectionPacketHeaderEstimate
        conservativeChannelHeaderEstimate magic serializeEntry conn₁ calls = some (oks₁, conn') ∧
      oks = ok :: oks₁ := by
  obtain ⟨⟨ok, written, conn₁⟩, hfirst, hrest⟩ := Option.bind_eq_some.mp h
  obtain ⟨⟨oks₁, conn₂⟩, hrun, hr⟩ := Option.map_eq_some'.mp hrest
  simp only [Prod.mk.injEq] at hr
  obtain ⟨rfl, rfl⟩ := hr
  exact ⟨ok, written, conn₁, oks₁, hfirst, hrun, rfl⟩

/-- Over a run of `GeneratePacket` calls whose channels and entry writes leave the allocator alone,
no block of the message factory's allocator is ever freed. -/
theorem generatePackets_outstanding
    (hleave : ∀ c f packetSequence availableBits,
      (ops.getPacketData c f packetSequence availableBits).2.2.2.allocator = f.allocator)
    (hwrite : ∀ config s e, (serializeEntry config s e).2.1.2.allocator = s.2.allocator) :
    ∀ (calls : List (UInt16 × Int)) {conn conn' : Connection σ} {oks : List Bool},
      generatePackets ops conservativeConnectionPacketHeaderEstimate conservativeChannelHeaderEstimate
        magic serializeEntry conn calls = some (oks, conn') →
      conn.messageFactory.allocator.outstanding <:+ conn'.messageFactory.allocator.outstanding
  | [], _, _, _, h => by
    simp only [generatePackets_nil ops _ _ magic serializeEntry h, List.suffix_refl]
  | (_, _) :: calls, _, _, _, h => by
    obtain ⟨_, _, _, _, h₁, h₂, -⟩ := generatePackets_cons ops _ _ magic serializeEntry h
    exact (generatePacket_outstanding ops _ _ magic serializeEntry hleave hwrite h₁).trans
      (generatePackets_outstanding hleave hwrite calls h₂)

theorem generatePackets_outstanding_two_packets :
    let ops : ChannelOps Unit := ⟨fun _ _ => (), fun _ _ => (),
      fun c f _ availableBits => (if 8 ≤ availableBits then 8 else 0, .initial, c, f),
      fun c f _ => (c, f), fun c _ => c, fun c f => (c, f)⟩
    let conn : Connection Unit := ⟨MessageFactory.new ⟨[], 0, fun _ => true⟩ 1 .messageFactory,
      ⟨1, fun _ => ⟨.reliableOrdered⟩⟩, [()], by decide, by decide, rfl⟩
    let serializeEntry : EntrySerializer WriteStream := fun _ s e => (true, s, e)
    ((∀ c f packetSequence availableBits,
      (ops.getPacketData c f packetSequence availableBits).2.2.2.allocator = f.allocator) ∧
      ∀ config s e, (serializeEntry config s e).2.1.2.allocator = s.2.allocator) ∧
    ∃ oks conn', generatePackets ops 16 32 0x12345678 serializeEntry conn
        [(0, 100), (1, 100)] = some (oks, conn') ∧
      conn.messageFactory.allocator.outstanding <:+ conn'.messageFactory.allocator.outstanding := by
  intro ops conn serializeEntry
  have hleave : ∀ c f packetSequence availableBits,
      (ops.getPacketData c f packetSequence availableBits).2.2.2.allocator = f.allocator :=
    fun _ _ _ _ => rfl
  have hwrite : ∀ config s e, (serializeEntry config s e).2.1.2.allocator = s.2.allocator :=
    fun _ _ _ => rfl
  obtain ⟨oks, conn', h⟩ : ∃ oks conn', generatePackets ops 16 32 0x12345678 serializeEntry conn
      [(0, 100), (1, 100)] = some (oks, conn') :=
    ⟨_, _, by simp only [ops, conn, serializeEntry]; rfl⟩
  exact ⟨⟨hleave, hwrite⟩, oks, conn', h, generatePackets_outstanding ops 16 32 _ _ hleave hwrite _ h⟩

/-- Over a run of `GeneratePacket` calls whose channels and entry writes leave the allocator alone
and whose channels have data whenever they are offered `k` bits, each call with a
`maxPacketBytes` that leaves `k` bits after the connection packet header estimate, from an
allocator that never fails: every call leaves the array of its packet outstanding, so the
outstanding blocks grow by one per call, without bound. -/
theorem generatePackets_leak {k : Int}
    (hleave : ∀ c f packetSequence availableBits,
      (ops.getPacketData c f packetSequence availableBits).2.2.2.allocator = f.allocator)
    (hwrite : ∀ config s e, (serializeEntry config s e).2.1.2.allocator = s.2.allocator)
    (hdata : ∀ c f packetSequence availableBits, k ≤ availableBits →
      0 < (ops.getPacketData c f packetSequence availableBits).1) :
    ∀ (calls : List (UInt16 × Int)) {conn conn' : Connection σ} {oks : List Bool},
      (∀ call ∈ calls, k ≤ cInt (cInt (call.2 * 8) - conservativeConnectionPacketHeaderEstimate)) →
      (∀ address, conn.messageFactory.allocator.succeeds address = true) →
      generatePackets ops conservativeConnectionPacketHeaderEstimate conservativeChannelHeaderEstimate
        magic serializeEntry conn calls = some (oks, conn') →
      conn'.messageFactory.allocator.outstanding.length =
        conn.messageFactory.allocator.outstanding.length + calls.length
  | [], _, _, _, _, _, h => by
    rw [generatePackets_nil ops _ _ magic serializeEntry h, List.length_nil, Nat.add_zero]
  | (packetSequence, maxPacketBytes) :: calls, conn, _, _, hoffer, hsucceeds, h => by
    obtain ⟨_, _, conn₁, _, h₁, h₂, -⟩ := generatePackets_cons ops _ _ magic serializeEntry h
    obtain ⟨hstep, hsucceeds₁⟩ := generatePacket_allocator ops _ _ magic serializeEntry hleave hwrite h₁
    have hk : k ≤ cInt (cInt (maxPacketBytes * 8) - conservativeConnectionPacketHeaderEstimate) :=
      hoffer (packetSequence, maxPacketBytes) (List.mem_cons_self _ _)
    rw [if_pos ⟨numChannelsWithData_budgetLoop_pos ops conservativeChannelHeaderEstimate hdata conn
      packetSequence hk, hsucceeds _⟩] at hstep
    have hrun := generatePackets_leak hleave hwrite hdata calls
      (fun call hcall => hoffer call (List.mem_cons_of_mem _ hcall))
      (fun address => hsucceeds₁ ▸ hsucceeds address) h₂
    rw [hrun, hstep, List.length_cons, List.length_cons]
    omega

theorem generatePackets_leak_two_packets :
    let ops : ChannelOps Unit := ⟨fun _ _ => (), fun _ _ => (),
      fun c f _ availableBits => (if 8 ≤ availableBits then 8 else 0, .initial, c, f),
      fun c f _ => (c, f), fun c _ => c, fun c f => (c, f)⟩
    let conn : Connection Unit := ⟨MessageFactory.new ⟨[], 0, fun _ => true⟩ 1 .messageFactory,
      ⟨1, fun _ => ⟨.reliableOrdered⟩⟩, [()], by decide, by decide, rfl⟩
    let serializeEntry : EntrySerializer WriteStream := fun _ s e => (true, s, e)
    ((∀ c f packetSequence availableBits,
        (ops.getPacketData c f packetSequence availableBits).2.2.2.allocator = f.allocator) ∧
      (∀ config s e, (serializeEntry config s e).2.1.2.allocator = s.2.allocator) ∧
      (∀ c f packetSequence availableBits, 8 ≤ availableBits →
        0 < (ops.getPacketData c f packetSequence availableBits).1) ∧
      (∀ call ∈ [((0 : UInt16), (100 : Int)), (1, 100)], 8 ≤ cInt (cInt (call.2 * 8) - 16)) ∧
      ∀ address, conn.messageFactory.allocator.succeeds address = true) ∧
    ∃ oks conn', generatePackets ops 16 32 0x12345678 serializeEntry conn
        [(0, 100), (1, 100)] = some (oks, conn') ∧
      conn'.messageFactory.allocator.outstanding.length =
        conn.messageFactory.allocator.outstanding.length + 2 := by
  intro ops conn serializeEntry
  have hleave : ∀ c f packetSequence availableBits,
      (ops.getPacketData c f packetSequence availableBits).2.2.2.allocator = f.allocator :=
    fun _ _ _ _ => rfl
  have hwrite : ∀ config s e, (serializeEntry config s e).2.1.2.allocator = s.2.allocator :=
    fun _ _ _ => rfl
  have hdata : ∀ c f packetSequence availableBits, 8 ≤ availableBits →
      0 < (ops.getPacketData c f packetSequence availableBits).1 := fun _ _ _ _ h => by
    simp only [ops, if_pos h]; decide
  have hoffer : ∀ call ∈ [((0 : UInt16), (100 : Int)), (1, 100)], 8 ≤ cInt (cInt (call.2 * 8) - 16) := by
    decide
  obtain ⟨oks, conn', h⟩ : ∃ oks conn', generatePackets ops 16 32 0x12345678 serializeEntry conn
      [(0, 100), (1, 100)] = some (oks, conn') :=
    ⟨_, _, by simp only [ops, conn, serializeEntry]; rfl⟩
  exact ⟨⟨hleave, hwrite, hdata, hoffer, fun _ => rfl⟩, oks, conn', h,
    generatePackets_leak ops 16 32 _ _ hleave hwrite hdata _ hoffer (fun _ => rfl) h⟩

end Connection

end Yojimbo
