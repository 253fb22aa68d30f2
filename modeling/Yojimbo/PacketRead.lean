import Yojimbo.ConnectionPacket
/-!
# Reading a connection packet

`Serialize` on a `ReadStream` is what the bytes of a peer reach, with every outcome of the
allocator. With `1 ≤ numChannels ≤ MaxChannels` no assert stops it. On every path but two the
packet is `WellFormed`: no array for no entries, otherwise an array of exactly `numChannelEntries`
entries. `serialize_int` stores the count in `numChannelEntries` before it checks the range, and
before `AllocateChannelData` runs, while `AllocateChannelData` sets the count only after its
allocation succeeds. So a count read above `numChannels`, and a count whose allocation fails, both
leave the packet with that count and a `NULL` array (`serialize_read_allocation_fails`).

The four lemmas of the first part say what a read into a new packet does after each outcome of
`serialize_int`; the rest is derived from them.
-/

namespace Yojimbo

namespace ConnectionPacket

/-! ### What a read does -/

section

variable {se : EntrySerializer ReadStream} {g : MessageFactory} {config : ConnectionConfig}
  {r r₁ : ReadStream} {n : Int}

/-- A read of a positive count `n` in range: the allocation, then, when it succeeds, the loop over
`n` initialised entries, from the factory the allocation left. -/
theorem serialize_new_read_pos (hint : serializeInt r 0 0 config.numChannels = some (true, r₁, n))
    (hpos : 0 < n) (hmax : n ≤ MaxChannels) :
    new.serialize se g config r =
      if g.allocator.succeeds g.allocator.next then
        (serializeEntries (se config) (r₁, { g with allocator := g.allocator.allocate.2 })
            (List.replicate n.toNat .initial)).map fun (ok, (r₂, g₂), es) =>
          (ok, r₂, ⟨n, some ⟨g.allocator.next, es⟩, true⟩, g₂)
      else some (false, r₁, ⟨n, none, true⟩, { g with allocator := g.allocator.allocate.2 }) := by
  unfold serialize
  rw [show new.numChannelEntries = 0 from rfl, hint]
  dsimp only
  rw [if_pos hpos]
  cases halloc : g.allocator.succeeds g.allocator.next <;>
    simp [serializeChannelEntries, allocateChannelData, Allocator.allocate, halloc, hpos, hmax,
      Stream.IsReading, new]

theorem serialize_new_read_nonpos (hint : serializeInt r 0 0 config.numChannels = some (true, r₁, n))
    (hpos : ¬0 < n) : new.serialize se g config r = some (true, r₁, ⟨n, none, false⟩, g) := by
  unfold serialize
  rw [show new.numChannelEntries = 0 from rfl, hint]
  exact if_neg hpos

theorem serialize_new_read_false (hint : serializeInt r 0 0 config.numChannels = some (false, r₁, n)) :
    new.serialize se g config r = some (false, r₁, ⟨n, none, false⟩, g) := by
  unfold serialize
  rw [show new.numChannelEntries = 0 from rfl, hint]
  rfl

theorem serialize_new_of_read {r₂ : ReadStream} {g₂ : MessageFactory} {es : List ChannelPacketData}
    {ok : Bool} (hint : serializeInt r 0 0 config.numChannels = some (true, r₁, n))
    (hn : 0 ≤ n ∧ n ≤ MaxChannels) (halloc : g.allocator.succeeds g.allocator.next = true)
    (hloop : serializeEntries (se config) (r₁, { g with allocator := g.allocator.allocate.2 })
      (List.replicate n.toNat .initial) = some (ok, (r₂, g₂), es)) :
    ∃ q g', new.serialize se g config r = some (ok, r₂, q, g') ∧
      q.numChannelEntries = n ∧ q.channelEntries = some es := by
  have hlen : es.length = n.toNat := by rw [serializeEntries_length hloop, List.length_replicate]
  by_cases hpos : 0 < n
  · rw [serialize_new_read_pos hint hpos hn.2, if_pos halloc, hloop]
    refine ⟨_, _, rfl, rfl, ?_⟩
    simp only [channelEntries, if_neg (Int.not_le.mpr hpos)]
    rw [if_pos hlen.ge, ← hlen, List.take_length]
  · obtain rfl : n = 0 := by omega
    simp only [Int.toNat_zero, List.replicate_zero, serializeEntries, Option.some.injEq,
      Prod.mk.injEq] at hloop
    obtain ⟨rfl, ⟨rfl, rfl⟩, rfl⟩ := hloop
    exact ⟨_, _, serialize_new_read_nonpos hint hpos, rfl, rfl⟩

end

/-! ### The shape of a read packet -/

/-- What a loop over the entries of a packet read with `numChannels` channels needs: a count in
`[0, numChannels]`, no array for no entries, and otherwise an array of exactly that many. -/
structure WellFormed (numChannels : Int) (p : ConnectionPacket) : Prop where
  count_nonneg : 0 ≤ p.numChannelEntries
  count_le : p.numChannelEntries ≤ numChannels
  array : p.numChannelEntries = 0 ∧ p.channelEntry = none ∨
    0 < p.numChannelEntries ∧
      ∃ array, p.channelEntry = some array ∧ array.entries.length = p.numChannelEntries.toNat

/-- `Serialize` on a `ReadStream` into a new packet, for every input, every entry reader and every
outcome of the allocator, with `1 ≤ numChannels ≤ MaxChannels`, stops on no assert. It leaves the
packet well formed, except on two paths that return `false` with a positive count and a `NULL`
array: the allocation failed for a count in range, or the count read is above `numChannels`. -/
theorem serialize_read_shape (se : EntrySerializer ReadStream) (g : MessageFactory)
    (config : ConnectionConfig) (r : ReadStream)
    (hchannels : 1 ≤ config.numChannels ∧ config.numChannels ≤ MaxChannels) :
    ∃ ok r' q g', new.serialize se g config r = some (ok, r', q, g') ∧
      (q.WellFormed config.numChannels ∨
        ok = false ∧ q.channelEntry = none ∧ 0 < q.numChannelEntries ∧
          (g.allocator.succeeds g.allocator.next = false ∧ q.numChannelEntries ≤ config.numChannels ∨
            config.numChannels < q.numChannelEntries ∧
              q.numChannelEntries < ((2 ^ bitsRequired 0 config.numChannels : Nat) : Int))) := by
  rcases hint : serializeInt r 0 0 config.numChannels with _ | ⟨ok, r₁, n⟩
  · rw [serializeInt_read_eq, if_pos (by omega)] at hint
    split at hint <;> cases hint
  obtain ⟨-, hread⟩ := serializeInt_read_some hint
  cases ok
  · refine ⟨_, _, _, _, serialize_new_read_false hint, ?_⟩
    rcases hread with ⟨-, -, rfl⟩ | ⟨-, -, hlo, hbound, -, hok⟩
    · exact .inl ⟨Int.le_refl 0, (by omega : (0 : Int) ≤ config.numChannels), .inl ⟨rfl, rfl⟩⟩
    · have hout : config.numChannels < n := by simp only [Bool.false_eq_true, false_iff] at hok; omega
      exact .inr ⟨rfl, rfl, (by omega : 0 < n), .inr ⟨hout, (by omega : n < _)⟩⟩
  obtain ⟨hlo, hhi⟩ := serializeInt_read_range hint
  by_cases hpos : 0 < n
  · rw [serialize_new_read_pos hint hpos (Int.le_trans hhi hchannels.2)]
    cases halloc : g.allocator.succeeds g.allocator.next
    · exact ⟨_, _, _, _, rfl, .inr ⟨rfl, rfl, hpos, .inl ⟨rfl, hhi⟩⟩⟩
    · have hsome : (serializeEntries (se config) (r₁, { g with allocator := g.allocator.allocate.2 })
          (List.replicate n.toNat .initial)).isSome :=
        serializeEntries_isSome fun e he => by rw [List.eq_of_mem_replicate he]; rfl
      obtain ⟨⟨ok, ⟨r₂, g₂⟩, es⟩, hloop⟩ := Option.isSome_iff_exists.mp hsome
      refine ⟨ok, r₂, _, _, by rw [if_pos rfl, hloop]; rfl, .inl ⟨hlo, hhi, .inr ⟨hpos, _, rfl, ?_⟩⟩⟩
      rw [serializeEntries_length hloop, List.length_replicate]
  · exact ⟨_, _, _, _, serialize_new_read_nonpos hint hpos,
      .inl ⟨hlo, hhi, .inl ⟨(by omega : n = 0), rfl⟩⟩⟩

theorem serialize_read_shape_two_channels :
    (1 ≤ (2 : Int) ∧ (2 : Int) ≤ MaxChannels) ∧ ∃ ok r' q g',
      new.serialize (fun _ s e => (true, s, e))
        (MessageFactory.new ⟨[], 0, fun _ => true⟩ 1 .messageFactory)
        ⟨2, fun _ => ⟨.reliableOrdered⟩⟩ (ReadStream.new [true, true, true]) = some (ok, r', q, g') ∧
      (q.WellFormed 2 ∨ ok = false ∧ q.channelEntry = none ∧ 0 < q.numChannelEntries ∧
        (true = false ∧ q.numChannelEntries ≤ 2 ∨
          2 < q.numChannelEntries ∧ q.numChannelEntries < ((2 ^ bitsRequired 0 2 : Nat) : Int))) :=
  ⟨by decide, serialize_read_shape _ _ ⟨2, fun _ => ⟨.reliableOrdered⟩⟩ _ (by decide)⟩

/-- One channel, a byte whose first bit reads a count of 1, and an allocator that fails: the packet
keeps `numChannelEntries = 1` with a `NULL` array. -/
theorem serialize_read_allocation_fails : ∃ r' g',
    new.serialize (fun _ s e => (true, s, e))
        (MessageFactory.new ⟨[], 0, fun _ => false⟩ 1 .messageFactory)
        ⟨1, fun _ => ⟨.reliableOrdered⟩⟩ (ReadStream.new (lowBits 8 1)) = some (false, r', ⟨1, none, true⟩, g') ∧
    ¬(⟨1, none, true⟩ : ConnectionPacket).WellFormed 1 :=
  ⟨_, _, rfl, fun h => by rcases h.array with ⟨h, -⟩ | ⟨-, _, h, -⟩ <;> cases h⟩

end ConnectionPacket

end Yojimbo
