import Yojimbo.Message
import Mathlib.Data.List.Basic
/-!
# The life of a message

Reference counts, `allocated_messages` and block ownership along every sequence of calls on the
messages of a factory. `Tracks calls f` is what the state `f` that `calls` reach says about each
message: its count is `1 + #AddRef - #Release`, it is in `allocated_messages` exactly while it
lives, its block is the one its last `AttachBlock` attached unless a `DetachBlock` came after, and
the addresses the allocator has not reached yet are untouched. Each call keeps `Tracks`, so every
run does (`tracks_run`), and the lifecycle of a message is read off it.

The count is an `int`, and `AddRef` on a count of `INT_MAX` wraps it to `INT_MIN`. `Tracks` holds
along the runs in which no count passes `INT_MAX` (`NoOverflow`); `refCount_wraps` is a run in
which one does.
-/

namespace Yojimbo

/-- The `AddRef` calls on the message at `address`. -/
def addRefs (address : Nat) (calls : List Call) : Nat := calls.count (.addRef address)

/-- The `Release` calls on the message at `address`. -/
def releases (address : Nat) (calls : List Call) : Nat := calls.count (.release address)

/-- How one call changes the block attached to the message at `address`: its allocator and
buffer. -/
def attachStep (address : Nat) (block : Option (Nat × Option Nat)) :
    Call → Option (Nat × Option Nat)
  | .attachBlock message allocator blockData _ =>
    if message = address then some (allocator, blockData) else block
  | .detachBlock message => if message = address then none else block
  | _ => block

/-- The block of the last `AttachBlock` on the message at `address`, unless a `DetachBlock`
came after it. -/
def attachedBlock (address : Nat) (calls : List Call) : Option (Nat × Option Nat) :=
  calls.foldl (attachStep address) none

/-- The frees the destructor of the message at `address` makes when `block` is attached. -/
def blockFrees (address : Nat) (block : Option (Nat × Option Nat)) : List BlockFree :=
  block.toList.map fun (allocator, blockData) => ⟨address, allocator, blockData⟩

/-- No count passes `INT_MAX`: at every point of the calls, `1 + #AddRef - #Release` of every
message is at most `INT_MAX`. -/
def NoOverflow (calls : List Call) : Prop :=
  ∀ n address, 1 + (addRefs address (calls.take n) : Int) - releases address (calls.take n) ≤ intMax

@[simp] theorem addRefs_append (address : Nat) (calls : List Call) (c : Call) :
    addRefs address (calls ++ [c]) = addRefs address calls + if c = .addRef address then 1 else 0 := by
  simp [addRefs, List.count_append, List.count_singleton']

@[simp] theorem releases_append (address : Nat) (calls : List Call) (c : Call) :
    releases address (calls ++ [c]) =
      releases address calls + if c = .release address then 1 else 0 := by
  simp [releases, List.count_append, List.count_singleton']

@[simp] theorem attachedBlock_append (address : Nat) (calls : List Call) (c : Call) :
    attachedBlock address (calls ++ [c]) = attachStep address (attachedBlock address calls) c := by
  simp [attachedBlock, List.foldl_append]

theorem NoOverflow.of_append {calls : List Call} {c : Call} (h : NoOverflow (calls ++ [c])) :
    NoOverflow calls := by
  intro n address
  rcases le_or_lt n calls.length with hn | hn
  · simpa [List.take_append_of_le_length hn] using h n address
  · simpa [List.take_of_length_le (Nat.le_of_lt hn), List.take_left'] using h calls.length address

theorem NoOverflow.last {calls : List Call} {c : Call} (h : NoOverflow (calls ++ [c]))
    (address : Nat) :
    1 + (addRefs address (calls ++ [c]) : Int) - releases address (calls ++ [c]) ≤ intMax := by
  simpa [List.take_of_length_le] using h (calls.length + 1) address

/-- What the state reached by `calls` says about each message. -/
structure Tracks (calls : List Call) (f : MessageFactory) : Prop where
  refCount : ∀ address m, f.messages address = some m →
    m.refCount = 1 + (addRefs address calls : Int) - releases address calls ∧ 0 < m.refCount
  allocated : ∀ address, (f.allocatedMessages address).isSome = (f.messages address).isSome
  block : ∀ address m, f.messages address = some m →
    m.allocator = (attachedBlock address calls).map Prod.fst ∧
      m.blockData = (attachedBlock address calls).bind Prod.snd
  fresh : ∀ address, f.allocator.next ≤ address → f.messages address = none ∧
    addRefs address calls = 0 ∧ releases address calls = 0 ∧ attachedBlock address calls = none

open MessageFactory

/-! ### One call at a time -/

variable {calls : List Call} {f f' : MessageFactory}

theorem Tracks.lt_next (ht : Tracks calls f) {address : Nat} {m : Message}
    (hm : f.messages address = some m) : address < f.allocator.next := by
  by_contra hle
  simp [(ht.fresh address (by omega)).1] at hm

theorem Tracks.create {type : Int} {address : Nat} (ht : Tracks calls f)
    (hc : f.create type = some (address, f')) : Tracks (calls ++ [.create type]) f' := by
  obtain ⟨-, -, m, allocator, hci, rfl⟩ := create_some hc
  obtain ⟨hnext, hsome⟩ := createInternal_spec f.factoryClass f.allocator type
  rw [hci] at hnext hsome
  dsimp only at hnext hsome
  obtain ⟨⟨b, rfl⟩, hlo, hhi⟩ := hsome address _ rfl
  obtain ⟨-, ha0, hr0, hb0⟩ := ht.fresh address hlo
  constructor
  · intro a m' hm'
    simp only [Function.update_apply] at hm'
    split at hm'
    · subst a; cases hm'
      simp [ha0, hr0, Message.setType, Message.new]
    · simpa using ht.refCount a m' hm'
  · intro a
    simp only [Function.update_apply]
    split <;> simp [ht.allocated]
  · intro a m' hm'
    simp only [Function.update_apply] at hm'
    split at hm'
    · subst a; cases hm'
      simp [hb0, attachStep, Message.setType, Message.new]
    · simpa [attachStep] using ht.block a m' hm'
  · intro a ha
    simp only at ha
    obtain ⟨h1, h2, h3, h4⟩ := ht.fresh a (by omega)
    simp [Function.update_apply, show a ≠ address by omega, h1, h2, h3, h4, attachStep]

/-- A call that changes only the object of the live message at `address` keeps `Tracks` when the
new object agrees with the calls. -/
theorem Tracks.update (ht : Tracks calls f) {c : Call} {address : Nat} {m m' : Message}
    (hm : f.messages address = some m)
    (hothers : ∀ a, a ≠ address → addRefs a (calls ++ [c]) = addRefs a calls ∧
      releases a (calls ++ [c]) = releases a calls ∧
      attachedBlock a (calls ++ [c]) = attachedBlock a calls)
    (hcount : m'.refCount = 1 + (addRefs address (calls ++ [c]) : Int) -
      releases address (calls ++ [c]) ∧ 0 < m'.refCount)
    (hblock : m'.allocator = (attachedBlock address (calls ++ [c])).map Prod.fst ∧
      m'.blockData = (attachedBlock address (calls ++ [c])).bind Prod.snd) :
    Tracks (calls ++ [c]) { f with messages := Function.update f.messages address (some m') } := by
  have hlt := ht.lt_next hm
  constructor
  · intro a m'' hm''
    simp only [Function.update_apply] at hm''
    split at hm''
    · subst a; cases hm''; exact hcount
    · rename_i hne
      obtain ⟨ha, hr, -⟩ := hothers a hne
      rw [ha, hr]
      exact ht.refCount a m'' hm''
  · intro a
    simp only [Function.update_apply]
    split
    · subst a; simp [ht.allocated, hm]
    · exact ht.allocated a
  · intro a m'' hm''
    simp only [Function.update_apply] at hm''
    split at hm''
    · subst a; cases hm''; exact hblock
    · rename_i hne
      rw [(hothers a hne).2.2]
      exact ht.block a m'' hm''
  · intro a ha
    have hne : a ≠ address := by simp only at ha; omega
    obtain ⟨h1, h2, h3, h4⟩ := ht.fresh a ha
    obtain ⟨ha', hr', hb'⟩ := hothers a hne
    simp [Function.update_apply, hne, h1, h2, h3, h4, ha', hr', hb']

theorem Tracks.addRef {address : Nat} (ht : Tracks calls f)
    (hno : NoOverflow (calls ++ [.addRef address])) (hc : f.addRef address = some f') :
    Tracks (calls ++ [.addRef address]) f' := by
  obtain ⟨m, m', hm, hm', rfl⟩ := withMessage_some hc
  cases hm'
  obtain ⟨hcount, hpos⟩ := ht.refCount address m hm
  have hlast := hno.last address
  simp only [addRefs_append, releases_append, if_true, reduceCtorEq, if_false] at hlast
  refine ht.update hm (fun a ha => by simp [Ne.symm ha, attachStep]) ?_ ?_
  · have hwrap : cInt (m.refCount + 1) = m.refCount + 1 :=
      cInt_of_le (by omega) (by push_cast at hlast; omega)
    simp only [Message.addRef, hwrap, addRefs_append, releases_append, if_true,
      reduceCtorEq, if_false]
    push_cast
    omega
  · simpa [Message.addRef, attachStep] using ht.block address m hm

theorem Tracks.release {address : Nat} {frees : List BlockFree} (ht : Tracks calls f)
    (hc : f.release address = some (f', frees)) : Tracks (calls ++ [.release address]) f' := by
  obtain ⟨m, hm, hpos, ⟨hone, -, -, rfl⟩ | ⟨hone, -, rfl⟩⟩ := release_some hc
  · have hlt := ht.lt_next hm
    constructor
    · intro a m' hm'
      simp only [Function.update_apply] at hm'
      split at hm'
      · cases hm'
      · rename_i hne
        simpa [Ne.symm hne] using ht.refCount a m' hm'
    · intro a
      simp only [Function.update_apply]
      split
      · rfl
      · exact ht.allocated a
    · intro a m' hm'
      simp only [Function.update_apply] at hm'
      split at hm'
      · cases hm'
      · simpa [attachStep] using ht.block a m' hm'
    · intro a ha
      have hne : a ≠ address := by simp only [Allocator.free_next] at ha; omega
      obtain ⟨h1, h2, h3, h4⟩ := ht.fresh a (by simpa using ha)
      simp [Function.update_apply, hne, Ne.symm hne, h1, h2, h3, h4, attachStep]
  · obtain ⟨hcount, -⟩ := ht.refCount address m hm
    refine ht.update hm (fun a ha => by simp [Ne.symm ha, attachStep]) ?_ ?_
    · simp only [releases_append, addRefs_append, if_true, reduceCtorEq, if_false]
      push_cast
      omega
    · simpa [attachStep] using ht.block address m hm

theorem Tracks.call (ht : Tracks calls f) {c : Call} {frees : List BlockFree}
    (hno : NoOverflow (calls ++ [c])) (hc : f.call c = some (f', frees)) :
    Tracks (calls ++ [c]) f' := by
  cases c with
  | create type =>
    obtain ⟨⟨address, f''⟩, hcreate, hr⟩ := Option.map_eq_some'.mp hc
    cases hr
    exact ht.create hcreate
  | addRef address =>
    obtain ⟨f'', hadd, hr⟩ := Option.map_eq_some'.mp hc
    cases hr
    exact ht.addRef hno hadd
  | release address => exact ht.release hc
  | attachBlock address allocator blockData blockSize =>
    obtain ⟨f'', hw, hr⟩ := Option.map_eq_some'.mp hc
    cases hr
    obtain ⟨m, m', hm, hm', rfl⟩ := withMessage_some hw
    obtain ⟨-, rfl⟩ := Message.attachBlock_some hm'
    refine ht.update hm (fun a ha => by simp [Ne.symm ha, attachStep]) ?_ (by simp [attachStep])
    simpa using ht.refCount address m hm
  | detachBlock address =>
    obtain ⟨f'', hw, hr⟩ := Option.map_eq_some'.mp hc
    cases hr
    obtain ⟨m, m', hm, hm', rfl⟩ := withMessage_some hw
    cases Message.detachBlock_some hm'
    refine ht.update hm (fun a ha => by simp [Ne.symm ha, attachStep]) ?_ (by simp [attachStep])
    simpa using ht.refCount address m hm

theorem tracks_new (allocator : Allocator) (numTypes : Int) (factoryClass : FactoryClass) :
    Tracks [] (MessageFactory.new allocator numTypes factoryClass) where
  refCount _ _ h := by cases h
  allocated _ := rfl
  block _ _ h := by cases h
  fresh _ _ := ⟨rfl, rfl, rfl, rfl⟩

/-- Every run from a new factory along which no count passes `INT_MAX` reaches a state that
tracks it. -/
theorem tracks_run {allocator : Allocator} {numTypes : Int} {factoryClass : FactoryClass}
    {frees : List (List BlockFree)} :
    ∀ {calls : List Call} {f : MessageFactory}, NoOverflow calls →
      (MessageFactory.new allocator numTypes factoryClass).run calls = some (f, frees) →
        Tracks calls f := by
  intro calls
  induction calls using List.reverseRecOn generalizing frees with
  | nil => intro f _ h; cases h; exact tracks_new allocator numTypes factoryClass
  | append_singleton calls c ih =>
    intro f hno h
    rw [run_append] at h
    obtain ⟨⟨f₀, frees₀⟩, h₀, h₁⟩ := Option.bind_eq_some.mp h
    obtain ⟨⟨f₁, last⟩, hc, hr⟩ := Option.map_eq_some'.mp h₁
    cases hr
    exact (ih hno.of_append h₀).call hno hc

/-! ### The lifecycle along a run -/

theorem Tracks.call_messages (ht : Tracks calls f) {c : Call} {last : List BlockFree}
    (hc : f.call c = some (f', last)) {address : Nat} {m : Message}
    (hm : f.messages address = some m) :
    f'.messages address = none ↔ c = .release address ∧ m.refCount = 1 := by
  have hlt := ht.lt_next hm
  cases c with
  | create type =>
    obtain ⟨⟨a, f''⟩, hcreate, hr⟩ := Option.map_eq_some'.mp hc
    cases hr
    obtain ⟨-, -, m', allocator, hci, rfl⟩ := create_some hcreate
    obtain ⟨-, hsome⟩ := createInternal_spec f.factoryClass f.allocator type
    rw [hci] at hsome
    have hne : address ≠ a := by have := (hsome a m' rfl).2.1; omega
    simp [Function.update_apply, hne, hm]
  | release b =>
    by_cases hb : address = b
    · subst hb
      obtain ⟨m', hm', -, ⟨hone, -, -, rfl⟩ | ⟨hone, -, rfl⟩⟩ := release_some hc <;>
        rw [hm] at hm' <;> cases hm' <;> simp [hone]
    · obtain ⟨m', -, -, ⟨-, -, -, rfl⟩ | ⟨-, -, rfl⟩⟩ := release_some hc <;>
        simp [Function.update_apply, hb, Ne.symm hb, hm]
  | addRef b | attachBlock b _ _ _ | detachBlock b =>
    obtain ⟨f'', hw, hr⟩ := Option.map_eq_some'.mp hc
    cases hr
    obtain ⟨m₀, m', -, -, rfl⟩ := withMessage_some hw
    by_cases hb : address = b <;> simp [Function.update_apply, hb, hm]

/-- The block buffers that `c`, made after `calls` and leaving the factory as `f'`, must free:
those attached to the message a `Release` destroys. -/
def freedBlocks (calls : List Call) (f' : MessageFactory) : Call → List BlockFree
  | .release address =>
    if f'.messages address = none then blockFrees address (attachedBlock address calls) else []
  | _ => []

theorem Tracks.call_frees (ht : Tracks calls f) {c : Call} {last : List BlockFree}
    (hc : f.call c = some (f', last)) :
    last = freedBlocks calls f' c := by
  cases c with
  | release address =>
    obtain ⟨m, hm, -, ⟨-, -, rfl, rfl⟩ | ⟨hone, rfl, rfl⟩⟩ := release_some hc
    · obtain ⟨hallocator, hblockData⟩ := ht.block address m hm
      simp only [freedBlocks, Function.update_same, if_true, blockFrees, hallocator, hblockData]
      cases attachedBlock address calls <;> rfl
    · simp [freedBlocks]
  | create type => obtain ⟨_, -, hr⟩ := Option.map_eq_some'.mp hc; cases hr; rfl
  | addRef b => obtain ⟨_, -, hr⟩ := Option.map_eq_some'.mp hc; cases hr; rfl
  | attachBlock b _ _ _ => obtain ⟨_, -, hr⟩ := Option.map_eq_some'.mp hc; cases hr; rfl
  | detachBlock b => obtain ⟨_, -, hr⟩ := Option.map_eq_some'.mp hc; cases hr; rfl

/-- The lifecycle of messages, at each call of every run from a new factory in which no count
passes `INT_MAX`: counts are `1 + #AddRef - #Release` and positive, a message dies on the `Release`
that makes `#Release = #AddRef + 1` and at no other call, `allocated_messages` holds exactly the
live messages, and the only block buffer a call frees is the one attached to the message it
destroys, through the allocator given to `AttachBlock`, unless a `DetachBlock` came after. -/
theorem message_lifecycle {allocator : Allocator} {numTypes : Int} {factoryClass : FactoryClass}
    {c : Call} {frees : List (List BlockFree)} {last : List BlockFree}
    (hrun : (MessageFactory.new allocator numTypes factoryClass).run calls = some (f, frees))
    (hc : f.call c = some (f', last)) (hno : NoOverflow (calls ++ [c])) :
    (∀ address m, f'.messages address = some m →
      m.refCount = 1 + (addRefs address (calls ++ [c]) : Int) - releases address (calls ++ [c]) ∧
        1 ≤ m.refCount) ∧
    (∀ address, (f.messages address).isSome → (f'.messages address = none ↔
      c = .release address ∧ releases address (calls ++ [c]) = addRefs address (calls ++ [c]) + 1)) ∧
    (∀ address, (f'.allocatedMessages address).isSome ↔ (f'.messages address).isSome) ∧
    last = freedBlocks calls f' c := by
  have ht := tracks_run hno.of_append hrun
  have ht' := ht.call hno hc
  refine ⟨ht'.refCount, fun address hlive => ?_, fun address => by rw [ht'.allocated address],
    ht.call_frees hc⟩
  obtain ⟨m, hm⟩ := Option.isSome_iff_exists.mp hlive
  rw [ht.call_messages hc hm]
  obtain ⟨hcount, -⟩ := ht.refCount address m hm
  refine and_congr_right fun hrelease => ?_
  subst hrelease
  simp only [addRefs_append, releases_append, if_true, reduceCtorEq, if_false]
  omega

theorem NoOverflow.of_addRefs_lt (h : ∀ address, addRefs address calls < intMax) :
    NoOverflow calls := by
  intro n address
  have hle : addRefs address (calls.take n) ≤ addRefs address calls :=
    (List.take_sublist n calls).count_le _
  have := h address
  omega

theorem run_addRefs {f₀ : MessageFactory} {frees : List (List BlockFree)} {address : Nat}
    {m : Message} (hrun : f₀.run calls = some (f, frees)) (hm : f.messages address = some m)
    (hr : cInt m.refCount = m.refCount) (k : Nat) :
    ∃ f' frees', f₀.run (calls ++ List.replicate k (.addRef address)) = some (f', frees') ∧
      f'.messages address = some { m with refCount := cInt (m.refCount + k) } := by
  induction k with
  | zero => exact ⟨f, frees, by simpa using hrun, by simp [hm, hr]⟩
  | succ k ih =>
    obtain ⟨f', frees', hrun', hm'⟩ := ih
    refine ⟨{ f' with
      messages := Function.update f'.messages address
        (some ({ m with refCount := cInt (m.refCount + k) }).addRef) }, frees' ++ [[]], ?_, ?_⟩
    · rw [List.replicate_succ', ← List.append_assoc, run_append, hrun']
      simp only [Option.some_bind, MessageFactory.call, MessageFactory.addRef,
        MessageFactory.withMessage, hm']
      rfl
    · simp [Message.addRef, cInt_cInt_add, Int.add_assoc]

/-- `INT_MAX` `AddRef`s on a new message: its count wraps to `INT_MIN`, where the calls give
`2^31`. -/
theorem refCount_wraps : ∃ f frees m,
    (MessageFactory.new ⟨[], 0, fun _ => true⟩ 1 (.declare .messageFactory [(0, false)])).run
      (.create 0 :: List.replicate 2147483647 (.addRef 0)) = some (f, frees) ∧
    f.messages 0 = some m ∧ m.refCount = -2147483648 ∧
    1 + (addRefs 0 (.create 0 :: List.replicate 2147483647 (.addRef 0)) : Int) -
      releases 0 (.create 0 :: List.replicate 2147483647 (.addRef 0)) = 2147483648 := by
  obtain ⟨f₁, hcreate, hm₁⟩ : ∃ f₁, (MessageFactory.new ⟨[], 0, fun _ => true⟩ 1
      (.declare .messageFactory [(0, false)])).run [.create 0] = some (f₁, [[]]) ∧
      f₁.messages 0 = some ((Message.new false).setType 0) := ⟨_, rfl, rfl⟩
  obtain ⟨f, frees, hrun, hm⟩ := run_addRefs hcreate hm₁ rfl 2147483647
  refine ⟨f, frees, _, hrun, hm, ?_, ?_⟩
  · show cInt (1 + 2147483647) = -2147483648
    decide
  · simp only [addRefs, releases, List.count_cons, List.count_replicate]
    decide

theorem message_lifecycle_attach_release : ∃ f f' frees last,
    (MessageFactory.new ⟨[], 0, fun _ => true⟩ 1 (.declare .messageFactory [(0, true)])).run
      [.create 0, .attachBlock 0 7 (some 9) 16] = some (f, frees) ∧
    f.call (.release 0) = some (f', last) ∧
    NoOverflow [.create 0, .attachBlock 0 7 (some 9) 16, .release 0] ∧
    last = [⟨0, 7, some 9⟩] := by
  have hno : NoOverflow [.create 0, .attachBlock 0 7 (some 9) 16, .release 0] :=
    NoOverflow.of_addRefs_lt fun address => by simp [addRefs, intMax]
  obtain ⟨f, f', frees, last, hrun, hc, hfreed⟩ : ∃ f f' frees last,
      (MessageFactory.new ⟨[], 0, fun _ => true⟩ 1 (.declare .messageFactory [(0, true)])).run
        [.create 0, .attachBlock 0 7 (some 9) 16] = some (f, frees) ∧
      f.call (.release 0) = some (f', last) ∧
      freedBlocks [.create 0, .attachBlock 0 7 (some 9) 16] f' (.release 0) = [⟨0, 7, some 9⟩] :=
    ⟨_, _, _, _, rfl, rfl, rfl⟩
  exact ⟨f, f', frees, last, hrun, hc, hno, (message_lifecycle hrun hc hno).2.2.2.trans hfreed⟩

end Yojimbo
