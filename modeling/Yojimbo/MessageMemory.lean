import Yojimbo.Message
import Mathlib.Data.List.Basic
import Mathlib.Data.List.Count
/-!
# Message memory over whole runs

Who owns the memory of a factory's messages. `CreateInternal` takes each message's block from the
factory's allocator, and `Release` gives it back through `YOJIMBO_DELETE` when the count reaches
zero. A `BlockMessage` owns the buffer its last `AttachBlock` gave it, and `~BlockMessage` frees
that buffer through the allocator given with it, unless `DetachBlock` handed the buffer back first.

A functional model cannot say "freed twice" of one call, so ownership is stated as a ledger over a
run, per address and per block buffer (`Ledger`). Each address is outstanding in the factory's
allocator as often as it was at the start, plus one while it holds a live message. Each block
buffer has been freed at most as often as `AttachBlock` attached it, less the live messages still
holding it. Every call keeps the ledger (`Ledger.call`), so every run from a new factory does
(`ledger_run`). No bound on the counts is needed: a count that wraps only makes a later `Release`
assert.
-/

namespace Yojimbo

/-- The `AttachBlock` calls of `calls` that attach `block`: an allocator and a data pointer. -/
def attaches (block : Nat × Option Nat) (calls : List Call) : Nat :=
  calls.countP fun
    | .attachBlock _ allocator blockData _ => decide ((allocator, blockData) = block)
    | _ => false

/-- The frees of `block` along a run, from the block buffers each call freed. -/
def freesOf (block : Nat × Option Nat) (frees : List (List BlockFree)) : Nat :=
  frees.flatten.countP fun free => decide ((free.allocator, free.blockData) = block)

/-- Whether a message holds `block`: an allocator is attached, with that data pointer. -/
def Message.holds (m : Message) (block : Nat × Option Nat) : Bool :=
  decide (m.allocator.map (·, m.blockData) = some block)

/-- The live messages below the allocator's next address that hold `block`. -/
def MessageFactory.holders (f : MessageFactory) (block : Nat × Option Nat) : Nat :=
  (List.range f.allocator.next).countP fun address => (f.messages address).any (·.holds block)

@[simp] theorem attaches_append (block : Nat × Option Nat) (calls : List Call) (c : Call) :
    attaches block (calls ++ [c]) = attaches block calls + attaches block [c] := by
  simp [attaches, List.countP_append]

@[simp] theorem freesOf_append (block : Nat × Option Nat) (frees : List (List BlockFree))
    (last : List BlockFree) :
    freesOf block (frees ++ [last]) = freesOf block frees + freesOf block [last] := by
  simp [freesOf, List.flatten_append, List.countP_append]

/-! ### Counting over the addresses -/

theorem countP_range_update {p q : Nat → Bool} {a : Nat} (hpq : ∀ k, k ≠ a → q k = p k) :
    ∀ {n : Nat}, a < n → (List.range n).countP q + (if p a then 1 else 0) =
      (List.range n).countP p + (if q a then 1 else 0)
  | 0, h => absurd h (Nat.not_lt_zero a)
  | n + 1, h => by
    simp only [List.range_succ, List.countP_append, List.countP_cons, List.countP_nil]
    rcases Nat.lt_succ_iff_lt_or_eq.mp h with h | rfl
    · have := countP_range_update hpq h
      rw [hpq n (by omega)]
      omega
    · rw [List.countP_congr fun k hk => by rw [hpq k (by simp at hk; omega)]]
      omega

theorem countP_range_of_le {p : Nat → Bool} {n : Nat} (hp : ∀ k, n ≤ k → p k = false) :
    ∀ {N : Nat}, n ≤ N → (List.range N).countP p = (List.range n).countP p
  | 0, h => by rw [Nat.le_zero.mp h]
  | N + 1, h => by
    rcases Nat.of_le_succ h with h | h
    · rw [List.range_succ, List.countP_append, countP_range_of_le hp h]
      simp [hp N h]
    · rw [h]

namespace MessageFactory

variable {f f' : MessageFactory}

theorem holders_eq (hfresh : ∀ address, f.allocator.next ≤ address → f.messages address = none)
    {N : Nat} (hN : f.allocator.next ≤ N) (block : Nat × Option Nat) :
    f.holders block =
      (List.range N).countP fun address => (f.messages address).any (·.holds block) :=
  (countP_range_of_le (fun k hk => by rw [hfresh k hk]; rfl) hN).symm

theorem holders_update (hfresh : ∀ address, f.allocator.next ≤ address → f.messages address = none)
    {address : Nat} {o : Option Message} (hle : f.allocator.next ≤ f'.allocator.next)
    (hlt : address < f'.allocator.next)
    (hmessages : f'.messages = Function.update f.messages address o) (block : Nat × Option Nat) :
    f'.holders block + (if (f.messages address).any (·.holds block) then 1 else 0) =
      f.holders block + (if o.any (·.holds block) then 1 else 0) := by
  have h := countP_range_update (p := fun a => (f.messages a).any (·.holds block))
    (q := fun a => (f'.messages a).any (·.holds block))
    (fun k hk => by simp only [hmessages, Function.update_noteq hk]) hlt
  rw [holders_eq hfresh hle]
  simpa only [holders, hmessages, Function.update_same] using h

end MessageFactory

/-- What a factory made over `allocator` owns after `calls`, which freed the block buffers
`frees` and left it as `f`: no message lies at or past the allocator's next address; each
address is outstanding as often as it was in `allocator`, plus one while it holds a live message;
each block buffer has been freed at most as often as it was attached, less its live holders; and
`allocated_messages` holds exactly the addresses of the live messages. -/
structure Ledger (allocator : Allocator) (calls : List Call) (frees : List (List BlockFree))
    (f : MessageFactory) : Prop where
  fresh : ∀ address, f.allocator.next ≤ address → f.messages address = none
  outstanding : ∀ address, f.allocator.outstanding.count address =
    allocator.outstanding.count address + if (f.messages address).isSome then 1 else 0
  blocks : ∀ block, freesOf block frees + f.holders block ≤ attaches block calls
  allocated : ∀ address, (f.allocatedMessages address).isSome = (f.messages address).isSome

/-! ### One call at a time -/

theorem createInternal_outstanding : ∀ (c : FactoryClass) (a : Allocator) (type : Int),
    (c.createInternal a type).2.outstanding =
      ((c.createInternal a type).1.map Prod.fst).toList ++ a.outstanding
  | .messageFactory, _, _ => rfl
  | .declare base messageTypes, a, type => by
    have hbase := createInternal_outstanding base a type
    simp only [FactoryClass.createInternal]
    rcases hb : base.createInternal a type with ⟨_ | ⟨address, m⟩, a₁⟩ <;> rw [hb] at hbase
    · simp only at hbase ⊢
      split
      · exact hbase
      · rcases ha : a₁.allocate with ⟨_ | address, a₂⟩ <;> dsimp only
        · have hfail : a₁.succeeds a₁.next = false := by
            simpa [Allocator.allocate_fst] using congrArg Prod.fst ha
          have ha₂ : a₂ = a₁.allocate.2 := by rw [ha]
          rw [ha₂, Allocator.allocate_outstanding, if_neg (by simp [hfail]), hbase]
        · obtain ⟨rfl, hok⟩ := Allocator.allocate_eq_some (congrArg Prod.fst ha)
          have ha₂ : a₂ = a₁.allocate.2 := by rw [ha]
          rw [ha₂, Allocator.allocate_outstanding, if_pos hok, hbase]
          rfl
    · exact hbase

variable {allocator : Allocator} {calls : List Call} {frees : List (List BlockFree)}
  {f f' : MessageFactory}

theorem Ledger.lt_next (hl : Ledger allocator calls frees f) {address : Nat} {m : Message}
    (hm : f.messages address = some m) : address < f.allocator.next := by
  by_contra hle
  simp [hl.fresh address (by omega)] at hm

/-- A call that changes only the live message at `address`, attaching at most the blocks the call
attaches, keeps the ledger. -/
theorem Ledger.update (hl : Ledger allocator calls frees f) {c : Call} {address : Nat}
    {m m' : Message} (hm : f.messages address = some m)
    (hf' : f' = { f with messages := Function.update f.messages address (some m') })
    (hblock : ∀ block, (if m'.holds block then 1 else 0) ≤
      (if m.holds block then 1 else 0) + attaches block [c]) :
    Ledger allocator (calls ++ [c]) (frees ++ [[]]) f' := by
  have hlt := hl.lt_next hm
  have hle : f.allocator.next ≤ f'.allocator.next := by subst hf'; exact Nat.le_refl _
  have hmessages : f'.messages = Function.update f.messages address (some m') := by subst hf'; rfl
  have hholders := MessageFactory.holders_update hl.fresh hle (Nat.lt_of_lt_of_le hlt hle) hmessages
  subst hf'
  refine ⟨fun a ha => ?_, fun a => ?_, fun block => ?_, fun a => ?_⟩
  · dsimp only at ha ⊢
    rw [Function.update_noteq (by omega)]
    exact hl.fresh a ha
  · by_cases ha : a = address
    · subst ha
      simpa [hm] using hl.outstanding a
    · simpa [Function.update_noteq ha] using hl.outstanding a
  · have := hholders block
    have := hl.blocks block
    have := hblock block
    simp only [hm, Option.any_some] at *
    rw [freesOf_append, attaches_append, show freesOf block [[]] = 0 from rfl]
    omega
  · by_cases ha : a = address
    · subst ha
      simpa [hm] using hl.allocated a
    · simpa [Function.update_noteq ha] using hl.allocated a

theorem Ledger.create (hl : Ledger allocator calls frees f) {type : Int} {address : Nat}
    (hc : f.create type = some (address, f')) :
    Ledger allocator (calls ++ [.create type]) (frees ++ [[]]) f' := by
  obtain ⟨-, -, m, allocator', hci, hf'⟩ := MessageFactory.create_some hc
  obtain ⟨hnext, hsome⟩ := MessageFactory.createInternal_spec f.factoryClass f.allocator type
  have hout := createInternal_outstanding f.factoryClass f.allocator type
  rw [hci] at hnext hsome hout
  dsimp only at hnext hsome hout
  obtain ⟨⟨b, rfl⟩, hlo, hhi⟩ := hsome address _ rfl
  have hnone : f.messages address = none := hl.fresh address hlo
  have hle : f.allocator.next ≤ f'.allocator.next := by subst hf'; exact hnext
  have hlt : address < f'.allocator.next := by subst hf'; exact hhi
  have hmessages : f'.messages =
      Function.update f.messages address (some ((Message.new b).setType type)) := by subst hf'; rfl
  have hholders := MessageFactory.holders_update hl.fresh hle hlt hmessages
  subst hf'
  refine ⟨fun a ha => ?_, fun a => ?_, fun block => ?_, fun a => ?_⟩
  · dsimp only at ha ⊢
    rw [Function.update_noteq (by omega)]
    exact hl.fresh a (by omega)
  · by_cases ha : a = address
    · subst ha
      simp [hout, hnone, hl.outstanding a]
    · simpa [hout, Function.update_noteq ha, List.count_cons, Ne.symm ha] using hl.outstanding a
  · have hnew : ((Message.new b).setType type).holds block = false := by
      simp [Message.holds, Message.new, Message.setType]
    have h₁ := hholders block
    have := hl.blocks block
    simp only [hnone, Option.any_none, Option.any_some, hnew, Bool.false_eq_true, if_false] at h₁
    rw [freesOf_append, attaches_append, show freesOf block [[]] = 0 from rfl,
      show attaches block [.create type] = 0 from rfl]
    omega
  · by_cases ha : a = address
    · subst ha
      simp
    · simpa [Function.update_noteq ha] using hl.allocated a

theorem Ledger.release (hl : Ledger allocator calls frees f) {address : Nat}
    {last : List BlockFree} (hc : f.release address = some (f', last)) :
    Ledger allocator (calls ++ [.release address]) (frees ++ [last]) f' := by
  obtain ⟨m, hm, hpos, ⟨hone, -, rfl, hf'⟩ | ⟨hone, rfl, hf'⟩⟩ := MessageFactory.release_some hc
  · have hlt := hl.lt_next hm
    have hle : f.allocator.next ≤ f'.allocator.next := by subst hf'; simp
    have hmessages : f'.messages = Function.update f.messages address none := by subst hf'; rfl
    have hholders := MessageFactory.holders_update hl.fresh hle (Nat.lt_of_lt_of_le hlt hle)
      hmessages
    subst hf'
    refine ⟨fun a ha => ?_, fun a => ?_, fun block => ?_, fun a => ?_⟩
    · dsimp only at ha ⊢
      rw [Allocator.free_next] at ha
      rw [Function.update_noteq (by omega)]
      exact hl.fresh a ha
    · have hcount := hl.outstanding a
      by_cases ha : a = address
      · subst ha
        simp only [hm, Option.isSome_some, if_true] at hcount
        simp [List.count_erase, hcount]
      · simpa [List.count_erase, Function.update_noteq ha, Ne.symm ha] using hcount
    · have := hholders block
      have := hl.blocks block
      have hlast : freesOf block [m.allocator.toList.map fun allocator =>
          ⟨address, allocator, m.blockData⟩] = if m.holds block then 1 else 0 := by
        rcases hallocator : m.allocator with _ | a <;>
          simp [freesOf, Message.holds, hallocator, List.countP_cons]
      simp only [hm, Option.any_some, Option.any_none, Bool.false_eq_true, if_false] at *
      rw [freesOf_append, attaches_append, hlast, show attaches block [.release address] = 0 from rfl]
      omega
    · by_cases ha : a = address
      · subst ha
        simp
      · simpa [Function.update_noteq ha] using hl.allocated a
  · exact hl.update hm hf' fun block => by simp [Message.holds]

theorem Ledger.call (hl : Ledger allocator calls frees f) {c : Call} {last : List BlockFree}
    (hc : f.call c = some (f', last)) : Ledger allocator (calls ++ [c]) (frees ++ [last]) f' := by
  cases c with
  | create type =>
    obtain ⟨⟨address, f''⟩, hcreate, hr⟩ := Option.map_eq_some'.mp hc
    cases hr
    exact hl.create hcreate
  | addRef address =>
    obtain ⟨f'', hw, hr⟩ := Option.map_eq_some'.mp hc
    cases hr
    obtain ⟨m, m', hm, hm', hf'⟩ := MessageFactory.withMessage_some hw
    cases hm'
    exact hl.update hm hf' fun block => by simp [Message.holds, Message.addRef]
  | release address => exact hl.release hc
  | attachBlock address allocator' blockData blockSize =>
    obtain ⟨f'', hw, hr⟩ := Option.map_eq_some'.mp hc
    cases hr
    obtain ⟨m, m', hm, hm', hf'⟩ := MessageFactory.withMessage_some hw
    obtain ⟨-, rfl⟩ := Message.attachBlock_some hm'
    refine hl.update hm hf' fun block => ?_
    by_cases hb : (allocator', blockData) = block <;> simp [Message.holds, attaches, hb]
  | detachBlock address =>
    obtain ⟨f'', hw, hr⟩ := Option.map_eq_some'.mp hc
    cases hr
    obtain ⟨m, m', hm, hm', hf'⟩ := MessageFactory.withMessage_some hw
    cases Message.detachBlock_some hm'
    exact hl.update hm hf' fun block => by simp [Message.holds]

theorem ledger_new (allocator : Allocator) (numTypes : Int) (factoryClass : FactoryClass) :
    Ledger allocator [] [] (MessageFactory.new allocator numTypes factoryClass) where
  fresh _ _ := rfl
  outstanding _ := by simp [MessageFactory.new]
  blocks _ := by simp [freesOf, attaches, MessageFactory.holders, MessageFactory.new]
  allocated _ := rfl

/-- Every run from a new factory keeps the ledger. -/
theorem ledger_run {numTypes : Int} {factoryClass : FactoryClass} :
    ∀ {calls : List Call} {f : MessageFactory} {frees : List (List BlockFree)},
      (MessageFactory.new allocator numTypes factoryClass).run calls = some (f, frees) →
      Ledger allocator calls frees f := by
  intro calls
  induction calls using List.reverseRecOn with
  | nil => intro f frees h; cases h; exact ledger_new allocator numTypes factoryClass
  | append_singleton calls c ih =>
    intro f frees h
    rw [MessageFactory.run_append] at h
    obtain ⟨⟨f₀, frees₀⟩, h₀, h₁⟩ := Option.bind_eq_some.mp h
    obtain ⟨⟨f₁, last⟩, hc, hr⟩ := Option.map_eq_some'.mp h₁
    cases hr
    exact (ih h₀).call hc

/-! ### What a run owns -/

/-- Block buffers over every run from a new factory: for each buffer, the frees the run made of it
and the live messages still holding it number at most the `AttachBlock` calls that attached it. So
a buffer attached once is freed at most once, and not while a live message holds it; a buffer that
no `AttachBlock` attached is never freed. -/
theorem run_freesOf_le {numTypes : Int} {factoryClass : FactoryClass}
    (hrun : (MessageFactory.new allocator numTypes factoryClass).run calls = some (f, frees))
    (block : Nat × Option Nat) :
    freesOf block frees + f.holders block ≤ attaches block calls :=
  (ledger_run hrun).blocks block

theorem run_freesOf_le_attach_release : ∃ f frees,
    (MessageFactory.new ⟨[], 0, fun _ => true⟩ 1 (.declare .messageFactory [(0, true)])).run
      [.create 0, .attachBlock 0 7 (some 9) 16, .release 0] = some (f, frees) ∧
    freesOf (7, some 9) frees + f.holders (7, some 9) ≤
      attaches (7, some 9) [.create 0, .attachBlock 0 7 (some 9) 16, .release 0] := by
  obtain ⟨f, frees, h⟩ : ∃ f frees,
      (MessageFactory.new ⟨[], 0, fun _ => true⟩ 1 (.declare .messageFactory [(0, true)])).run
        [.create 0, .attachBlock 0 7 (some 9) 16, .release 0] = some (f, frees) := ⟨_, _, rfl⟩
  exact ⟨f, frees, h, run_freesOf_le h _⟩

/-! ### The leak check of `~MessageFactory` -/

end Yojimbo
