import Yojimbo.Connection
/-!
# The bit budget of `GeneratePacket`

The first loop of `GeneratePacket` starts from `8 * maxPacketBytes` less the connection packet
header estimate and offers what is left to each channel in id order; a channel that returns data
then pays its bits and the channel header estimate. The size the loop accounts for is the header
estimate plus, for each channel with data, its bits and the channel header estimate
(`accountedSize`). When no `int` wraps, the loop keeps that size and what is left summing to
`8 * maxPacketBytes` (`budgetLoop_spent`). A channel takes at most what it is offered, so what is
left never goes below minus one channel header estimate once a channel has taken data.

So the accounted size is at most `8 * maxPacketBytes + ConservativeChannelHeaderEstimate`
(`budget_accounted`), and not `8 * maxPacketBytes`: the estimate is paid after the channel has
taken its bits, so a channel that fills its whole offer goes past the packet
(`budget_exceeds_packet`).
-/

namespace Yojimbo

namespace Connection

variable {σ : Type} (ops : ChannelOps σ)

/-- What the channels with data pay: their bits and a channel header estimate each. -/
def spent (conservativeChannelHeaderEstimate : Int) : List (Int × ChannelPacketData) → Int
  | [] => 0
  | (packetDataBits, _) :: results =>
    (if 0 < packetDataBits then packetDataBits + conservativeChannelHeaderEstimate else 0) +
      spent conservativeChannelHeaderEstimate results

/-- The size the budget loop accounts for a packet: the connection packet header estimate and what
the channels with data pay. -/
def accountedSize (conservativeConnectionPacketHeaderEstimate conservativeChannelHeaderEstimate : Int)
    (results : List (Int × ChannelPacketData)) : Int :=
  conservativeConnectionPacketHeaderEstimate + spent conservativeChannelHeaderEstimate results

theorem spent_eq_zero {conservativeChannelHeaderEstimate : Int} :
    ∀ {results : List (Int × ChannelPacketData)}, (∀ r ∈ results, r.1 ≤ 0) →
      spent conservativeChannelHeaderEstimate results = 0
  | [], _ => rfl
  | (packetDataBits, _) :: results, h => by
    have hhead : ¬0 < packetDataBits := Int.not_lt.mpr (h _ (List.mem_cons_self _ _))
    rw [spent, if_neg hhead, spent_eq_zero fun r hr => h r (List.mem_cons_of_mem _ hr), Int.add_zero]

section

variable {conservativeChannelHeaderEstimate : Int} (packetSequence : UInt16)
  (hbits : ∀ c f packetSequence availableBits,
    (ops.getPacketData c f packetSequence availableBits).1 ≤ availableBits)
  (hestimate : 0 ≤ conservativeChannelHeaderEstimate ∧ conservativeChannelHeaderEstimate ≤ intMax)

include hbits hestimate in
/-- While no `int` wraps, what the channels pay and what is left sum to the bits the loop started
with; and once a channel has taken data, what is left is at least minus one channel header
estimate. -/
theorem budgetLoop_spent : ∀ (cs : List σ) (f : MessageFactory) (availableBits : Int)
    {results : List (Int × ChannelPacketData)} {cs' : List σ} {f' : MessageFactory} {final : Int},
    -2147483648 ≤ availableBits → availableBits ≤ intMax →
    budgetLoop ops conservativeChannelHeaderEstimate packetSequence cs f availableBits =
      (results, cs', f', final) →
    spent conservativeChannelHeaderEstimate results + final = availableBits ∧
      ((∃ r ∈ results, 0 < r.1) → -conservativeChannelHeaderEstimate ≤ final)
  | [], _, _, _, _, _, _, _, _, h => by
    simp only [budgetLoop, Prod.mk.injEq] at h
    obtain ⟨rfl, -, -, rfl⟩ := h
    simp [spent]
  | c :: cs, f, availableBits, _, _, _, _, hlo, hhi, h => by
    obtain ⟨b, data, c₁, f₁, results, cs₁, hget, hrest, rfl, -⟩ := budgetLoop_cons_eq ops h
    have hle : b ≤ availableBits := by simpa [hget] using hbits c f packetSequence availableBits
    simp only [intMax] at hhi hestimate
    rw [spent]
    by_cases hb : 0 < b
    · rw [if_pos hb, cInt_cInt_sub ⟨by omega, by omega⟩ ⟨by omega, by omega⟩] at hrest
      obtain ⟨hsum, hlast⟩ := budgetLoop_spent cs f₁ _ (by omega) (by simp only [intMax]; omega) hrest
      rw [if_pos hb]
      refine ⟨by omega, fun _ => ?_⟩
      by_cases hdata : ∃ r ∈ results, 0 < r.1
      · exact hlast hdata
      · rw [spent_eq_zero fun r hr => Int.not_lt.mp fun hpos => hdata ⟨r, hr, hpos⟩] at hsum
        omega
    · rw [if_neg hb] at hrest
      obtain ⟨hsum, hlast⟩ := budgetLoop_spent cs f₁ _ hlo (by simp only [intMax]; omega) hrest
      rw [if_neg hb]
      refine ⟨by omega, fun ⟨r, hr, hpos⟩ => hlast ⟨r, ?_, hpos⟩⟩
      rcases List.mem_cons.mp hr with rfl | hr
      · exact absurd hpos hb
      · exact hr

end

/-- For packets of up to `INT_MAX / 8` bytes and estimates that fit an `int`: when a channel has
data, the accounted size is at most `8 * maxPacketBytes` plus one channel header estimate; when
none has, it is the connection packet header estimate. -/
theorem budget_accounted (conn : Connection σ) (packetSequence : UInt16)
    (conservativeConnectionPacketHeaderEstimate conservativeChannelHeaderEstimate maxPacketBytes : Int)
    (hbits : ∀ c f packetSequence availableBits,
      (ops.getPacketData c f packetSequence availableBits).1 ≤ availableBits)
    (hbytes : 0 ≤ maxPacketBytes ∧ maxPacketBytes * 8 ≤ intMax)
    (hheader : 0 ≤ conservativeConnectionPacketHeaderEstimate ∧
      conservativeConnectionPacketHeaderEstimate ≤ intMax)
    (hestimate : 0 ≤ conservativeChannelHeaderEstimate ∧ conservativeChannelHeaderEstimate ≤ intMax) :
    let results := (budgetLoop ops conservativeChannelHeaderEstimate packetSequence conn.channel
      conn.messageFactory
      (cInt (cInt (maxPacketBytes * 8) - conservativeConnectionPacketHeaderEstimate))).1
    ((∃ r ∈ results, 0 < r.1) →
      accountedSize conservativeConnectionPacketHeaderEstimate conservativeChannelHeaderEstimate
        results ≤ 8 * maxPacketBytes + conservativeChannelHeaderEstimate) ∧
    ((∀ r ∈ results, r.1 ≤ 0) →
      accountedSize conservativeConnectionPacketHeaderEstimate conservativeChannelHeaderEstimate
        results = conservativeConnectionPacketHeaderEstimate) := by
  simp only [intMax] at hbytes hheader
  rw [cInt_cInt_sub ⟨by omega, by omega⟩ ⟨by omega, by omega⟩]
  rcases hloop : budgetLoop ops conservativeChannelHeaderEstimate packetSequence conn.channel
    conn.messageFactory (maxPacketBytes * 8 - conservativeConnectionPacketHeaderEstimate) with
    ⟨results, cs', f', final⟩
  obtain ⟨hsum, hlast⟩ := budgetLoop_spent ops packetSequence hbits hestimate conn.channel
    conn.messageFactory _ (by omega) (by simp only [intMax]; omega) hloop
  exact ⟨fun hdata => by have := hlast hdata; simp only [accountedSize]; omega,
    fun hnone => by rw [accountedSize, spent_eq_zero hnone, Int.add_zero]⟩

/-- A packet of 100 bytes, header estimates of 16 and 32 bits, and one channel that takes the
whole offer: the accounted size is 832 bits, over the 800 the packet holds. -/
theorem budget_exceeds_packet :
    (∀ (c : Unit) f packetSequence (availableBits : Int),
      ((⟨fun _ _ => (), fun _ _ => (), fun c f _ availableBits => (availableBits, .initial, c, f),
          fun c f _ => (c, f), fun c _ => c, fun c f => (c, f)⟩ : ChannelOps Unit).getPacketData
        c f packetSequence availableBits).1 ≤ availableBits) ∧
    8 * 100 < accountedSize 16 32 (budgetLoop
      ⟨fun _ _ => (), fun _ _ => (), fun c f _ availableBits => (availableBits, .initial, c, f),
        fun c f _ => (c, f), fun c _ => c, fun c f => (c, f)⟩ 32 0 [()]
      (MessageFactory.new ⟨[], 0, fun _ => true⟩ 1 .messageFactory) (cInt (cInt (100 * 8) - 16))).1 :=
  ⟨fun _ _ _ _ => Int.le_refl _, by decide⟩

theorem budget_accounted_one_channel :
    (∀ (c : Unit) f packetSequence (availableBits : Int),
      ((⟨fun _ _ => (), fun _ _ => (), fun c f _ availableBits => (availableBits, .initial, c, f),
          fun c f _ => (c, f), fun c _ => c, fun c f => (c, f)⟩ : ChannelOps Unit).getPacketData
        c f packetSequence availableBits).1 ≤ availableBits) ∧
    ((0 : Int) ≤ 100 ∧ (100 : Int) * 8 ≤ intMax) ∧ ((0 : Int) ≤ 16 ∧ (16 : Int) ≤ intMax) ∧
    ((0 : Int) ≤ 32 ∧ (32 : Int) ≤ intMax) ∧
    let results := (budgetLoop
      ⟨fun _ _ => (), fun _ _ => (), fun c f _ availableBits => (availableBits, .initial, c, f),
        fun c f _ => (c, f), fun c _ => c, fun c f => (c, f)⟩ 32 0 [()]
      (MessageFactory.new ⟨[], 0, fun _ => true⟩ 1 .messageFactory) (cInt (cInt (100 * 8) - 16))).1
    ((∃ r ∈ results, 0 < r.1) → accountedSize 16 32 results ≤ 8 * 100 + 32) ∧
    ((∀ r ∈ results, r.1 ≤ 0) → accountedSize 16 32 results = 16) :=
  ⟨fun _ _ _ _ => Int.le_refl _, by decide, by decide, by decide,
    budget_accounted _ ⟨MessageFactory.new ⟨[], 0, fun _ => true⟩ 1 .messageFactory,
      ⟨1, fun _ => ⟨.reliableOrdered⟩⟩, [()], by decide, by decide, rfl⟩ 0 16 32 100
      (fun _ _ _ _ => Int.le_refl _) (by decide) (by decide) (by decide)⟩

end Connection

end Yojimbo
