import Yojimbo.Allocator
import Mathlib.Logic.Function.Basic
/-!
# Messages and the message factory

`yojimbo_message.h`: a `Message` is a reference-counted object on a block of the factory's
allocator, a `BlockMessage` is a message that may own a block buffer of another allocator, and a
`MessageFactory` creates messages by type and destroys each on its last `Release`. A factory class
that an application declares with `YOJIMBO_MESSAGE_FACTORY_START`, its
`YOJIMBO_DECLARE_MESSAGE_TYPE` lines and `YOJIMBO_MESSAGE_FACTORY_FINISH` is a `FactoryClass`
value, and `FactoryClass.createInternal` is the `CreateInternal` the macros expand to.

The factory's state holds its message objects by address. A failing `assert`, and a call on an
address that holds no message, stop the program; both are a `none` result. The calls an application
makes on messages are the `Call` values, and `MessageFactory.run` makes a list of them in order and
records the block buffers each one frees.
-/

namespace Yojimbo

/-- A message object: `m_refCount`, the bit fields `m_id : 16`, `m_type : 15` and
`m_blockMessage : 1`, and the fields `BlockMessage` adds, which stay `NULL` on other classes. -/
structure Message where
  refCount : Int
  id : BitVec 16
  type : BitVec 15
  blockMessage : Bool
  allocator : Option Nat
  blockData : Option Nat
  blockSize : Int
  deriving DecidableEq

/-- A block buffer that the destructor of the message at `message` frees through `allocator`. -/
structure BlockFree where
  message : Nat
  allocator : Nat
  blockData : Option Nat
  deriving DecidableEq

namespace Message

/-- `Message( blockMessage )`, which `BlockMessage()` calls with 1: one reference, id and type 0,
no block. -/
def new (blockMessage : Bool) : Message :=
  { refCount := 1, id := 0, type := 0, blockMessage, allocator := none, blockData := none,
    blockSize := 0 }

/-- `AssignId`: a `uint16_t` stored into the 16-bit field. -/
def assignId (m : Message) (id : UInt16) : Message := { m with id := BitVec.ofNat 16 id.toNat }

/-- `GetId`: the 16-bit field read back as an `int`. -/
def getId (m : Message) : Int := m.id.toNat

/-- `GetType`: the 15-bit field read back as an `int`. -/
def getType (m : Message) : Int := m.type.toNat

/-- `SetType`: an `int` stored into the 15-bit field. -/
def setType (m : Message) (type : Int) : Message := { m with type := BitVec.ofInt 15 type }

/-- `AddRef`. -/
def addRef (m : Message) : Message := { m with refCount := cInt (m.refCount + 1) }

/-- `Release`, which asserts that the count is positive. -/
def release (m : Message) : Option Message :=
  if 0 < m.refCount then some { m with refCount := m.refCount - 1 } else none

/-- `AttachBlock`, a method of `BlockMessage`, with its three asserts. -/
def attachBlock (m : Message) (allocator : Nat) (blockData : Option Nat) (blockSize : Int) :
    Option Message :=
  if m.blockMessage ∧ blockData.isSome ∧ 0 < blockSize ∧ m.blockData = none then
    some { m with allocator := some allocator, blockData, blockSize }
  else none

/-- `DetachBlock`, a method of `BlockMessage`. -/
def detachBlock (m : Message) : Option Message :=
  if m.blockMessage then some { m with allocator := none, blockData := none, blockSize := 0 }
  else none

/-- `~BlockMessage` then `~Message` of the message at `address`: the block buffer is freed when an
allocator is attached, and the count must be zero. -/
def destroy (m : Message) (address : Nat) : Option (List BlockFree) :=
  if m.refCount = 0 then
    some (m.allocator.toList.map fun allocator => ⟨address, allocator, m.blockData⟩)
  else none


theorem attachBlock_some {m m' : Message} {allocator : Nat} {blockData : Option Nat}
    {blockSize : Int} (h : m.attachBlock allocator blockData blockSize = some m') :
    m.blockData = none ∧
      m' = { m with allocator := some allocator, blockData := blockData, blockSize := blockSize } := by
  unfold attachBlock at h
  split at h
  · rename_i hcond
    exact ⟨hcond.2.2.2, (Option.some.inj h).symm⟩
  · cases h

theorem detachBlock_some {m m' : Message} (h : m.detachBlock = some m') :
    m' = { m with allocator := none, blockData := none, blockSize := 0 } := by
  unfold detachBlock at h
  split at h
  · exact (Option.some.inj h).symm
  · cases h

end Message

/-- A message factory class: `MessageFactory` itself, or the class that a
`YOJIMBO_MESSAGE_FACTORY_START` block declares over a base class, with one
`YOJIMBO_DECLARE_MESSAGE_TYPE` line per type: its value and whether its class is a
`BlockMessage`. -/
inductive FactoryClass
  | messageFactory
  | declare (base : FactoryClass) (messageTypes : List (Int × Bool))

/-- `CreateInternal`: the base class's message if it made one, else a new message of the class
declared for `type`, typed by `SetMessageType`; `NULL` when the allocator fails or no line
declares `type`. -/
def FactoryClass.createInternal :
    FactoryClass → Allocator → Int → Option (Nat × Message) × Allocator
  | .messageFactory, allocator, _ => (none, allocator)
  | .declare base messageTypes, allocator, type =>
    match base.createInternal allocator type with
    | (some message, allocator) => (some message, allocator)
    | (none, allocator) =>
      match messageTypes.find? (·.1 == type) with
      | none => (none, allocator)
      | some (messageType, blockMessage) =>
        match allocator.allocate with
        | (some address, allocator) =>
          (some (address, (Message.new blockMessage).setType messageType), allocator)
        | (none, allocator) => (none, allocator)

/-- A `MessageFactory` object: its allocator, `m_numTypes`, its class, the message objects on the
allocator's blocks, and `allocated_messages` of `YOJIMBO_DEBUG_MESSAGE_LEAKS`. -/
structure MessageFactory where
  allocator : Allocator
  numTypes : Int
  factoryClass : FactoryClass
  messages : Nat → Option Message
  allocatedMessages : Nat → Option Int

namespace MessageFactory

/-- `MessageFactory( allocator, numTypes )`, of the class `factoryClass`. -/
def new (allocator : Allocator) (numTypes : Int) (factoryClass : FactoryClass) : MessageFactory :=
  { allocator, numTypes, factoryClass, messages := fun _ => none,
    allocatedMessages := fun _ => none }

/-- `Create`: asserts that `type` is in `[0, numTypes)` and that `CreateInternal` made a message,
then enters it in `allocated_messages`. -/
def create (f : MessageFactory) (type : Int) : Option (Nat × MessageFactory) :=
  if 0 ≤ type ∧ type < f.numTypes then
    match f.factoryClass.createInternal f.allocator type with
    | (some (address, message), allocator) =>
      some (address,
        { f with
          allocator := allocator
          messages := Function.update f.messages address (some message)
          allocatedMessages := Function.update f.allocatedMessages address (some 1) })
    | (none, _) => none
  else none

/-- A method called on the message at `address`, which must hold one. -/
def withMessage (f : MessageFactory) (address : Nat) (g : Message → Option Message) :
    Option MessageFactory :=
  match f.messages address with
  | some m =>
    (g m).map fun m' => { f with messages := Function.update f.messages address (some m') }
  | none => none

/-- `AddRef`. -/
def addRef (f : MessageFactory) (address : Nat) : Option MessageFactory :=
  f.withMessage address fun m => some m.addRef

/-- `Release`: on the last reference, the message leaves `allocated_messages` and is destroyed
with `YOJIMBO_DELETE` on the factory's allocator. -/
def release (f : MessageFactory) (address : Nat) : Option (MessageFactory × List BlockFree) :=
  match f.messages address with
  | none => none
  | some m =>
    match m.release with
    | none => none
    | some m =>
      if m.refCount = 0 then
        if (f.allocatedMessages address).isSome then
          (m.destroy address).map fun frees =>
            ({ f with
                messages := Function.update f.messages address none
                allocatedMessages := Function.update f.allocatedMessages address none
                allocator := f.allocator.free (some address) }, frees)
        else none
      else some ({ f with messages := Function.update f.messages address (some m) }, [])

/-- `~MessageFactory` under `YOJIMBO_DEBUG_MESSAGE_LEAKS`: when `allocated_messages` is not empty,
it prints "you leaked messages!", how many leaked, and each leaked message with its type and
reference count in address order, then calls `exit(1)`; that report is the error. Otherwise the
destructor returns. The keys of the map are read off the addresses below the allocator's next
one, past which no message lies. -/
def destroy (f : MessageFactory) : Except (Nat × List (Nat × Int × Int)) Unit :=
  let leaked := (List.range f.allocator.next).filter fun address => (f.allocatedMessages address).isSome
  if leaked.length ≠ 0 then
    .error (leaked.length, leaked.map fun address =>
      (address, ((f.messages address).map Message.getType).getD 0,
        ((f.messages address).map (·.refCount)).getD 0))
  else .ok ()

end MessageFactory

/-- The calls an application makes on the messages of one factory. -/
inductive Call
  | create (type : Int)
  | addRef (message : Nat)
  | release (message : Nat)
  | attachBlock (message : Nat) (allocator : Nat) (blockData : Option Nat) (blockSize : Int)
  | detachBlock (message : Nat)
  deriving DecidableEq

namespace MessageFactory

/-- One call, with the block buffers it frees. -/
def call (f : MessageFactory) : Call → Option (MessageFactory × List BlockFree)
  | .create type => (f.create type).map fun r => (r.2, [])
  | .addRef message => (f.addRef message).map (·, [])
  | .release message => f.release message
  | .attachBlock message allocator blockData blockSize =>
    (f.withMessage message (·.attachBlock allocator blockData blockSize)).map (·, [])
  | .detachBlock message => (f.withMessage message Message.detachBlock).map (·, [])

/-- A list of calls in order, with the block buffers each one frees. -/
def run (f : MessageFactory) (calls : List Call) :
    Option (MessageFactory × List (List BlockFree)) :=
  calls.foldl (fun state c => state.bind fun (f, frees) =>
    (f.call c).map fun (f, last) => (f, frees ++ [last])) (some (f, []))

/-! ### What each call does

One inversion lemma per operation: everything a successful call can have done. The invariants
of `MessageLifecycle` and the type of a created message are read off these. -/

/-- What `CreateInternal` does to the allocator, and what a message it makes is. -/
theorem createInternal_spec : ∀ (c : FactoryClass) (a : Allocator) (type : Int),
    a.next ≤ (c.createInternal a type).2.next ∧
    ∀ address m, (c.createInternal a type).1 = some (address, m) →
      (∃ blockMessage, m = (Message.new blockMessage).setType type) ∧ a.next ≤ address ∧
        address < (c.createInternal a type).2.next
  | .messageFactory, a, type => by simp [FactoryClass.createInternal]
  | .declare base messageTypes, a, type => by
    obtain ⟨hnext, hsome⟩ := createInternal_spec base a type
    simp only [FactoryClass.createInternal]
    rcases hb : base.createInternal a type with ⟨_ | ⟨p, m1⟩, a1⟩
    · rw [hb] at hnext
      simp only at hnext ⊢
      split
      · exact ⟨hnext, by simp⟩
      · rename_i messageType blockMessage hfind
        have htype : messageType = type := by simpa using List.find?_some hfind
        have hal := Allocator.allocate_next a1
        rcases hb2 : a1.allocate with ⟨_ | p, a2⟩ <;> rw [hb2] at hal <;> simp only at hal ⊢
        · exact ⟨by omega, by simp⟩
        · obtain ⟨rfl, -⟩ := Allocator.allocate_eq_some (congrArg Prod.fst hb2)
          refine ⟨by omega, ?_⟩
          rintro _ _ ⟨rfl, rfl⟩
          exact ⟨⟨blockMessage, by rw [htype]⟩, hnext, by omega⟩
    · rw [hb] at hnext hsome
      exact ⟨hnext, hsome⟩

theorem create_some {f f' : MessageFactory} {type : Int} {address : Nat}
    (h : f.create type = some (address, f')) :
    0 ≤ type ∧ type < f.numTypes ∧ ∃ m allocator,
      f.factoryClass.createInternal f.allocator type = (some (address, m), allocator) ∧
      f' = { f with
        allocator := allocator
        messages := Function.update f.messages address (some m)
        allocatedMessages := Function.update f.allocatedMessages address (some 1) } := by
  unfold create at h
  split at h
  · rename_i hrange
    split at h
    · rename_i message allocator hc
      simp only [Option.some.injEq, Prod.mk.injEq] at h
      obtain ⟨rfl, rfl⟩ := h
      exact ⟨hrange.1, hrange.2, _, _, hc, rfl⟩
    · cases h
  · cases h

theorem withMessage_some {f f' : MessageFactory} {address : Nat} {g : Message → Option Message}
    (h : f.withMessage address g = some f') : ∃ m m', f.messages address = some m ∧
      g m = some m' ∧ f' = { f with messages := Function.update f.messages address (some m') } := by
  unfold withMessage at h
  split at h
  · rename_i m hm
    obtain ⟨m', hg, rfl⟩ := Option.map_eq_some'.mp h
    exact ⟨m, m', hm, hg, rfl⟩
  · cases h

theorem release_some {f f' : MessageFactory} {address : Nat} {frees : List BlockFree}
    (h : f.release address = some (f', frees)) : ∃ m, f.messages address = some m ∧
      0 < m.refCount ∧
      ((m.refCount = 1 ∧ (f.allocatedMessages address).isSome ∧
        frees = m.allocator.toList.map (fun allocator => ⟨address, allocator, m.blockData⟩) ∧
        f' = { f with
          messages := Function.update f.messages address none
          allocatedMessages := Function.update f.allocatedMessages address none
          allocator := f.allocator.free (some address) }) ∨
      (m.refCount ≠ 1 ∧ frees = [] ∧ f' = { f with
        messages := Function.update f.messages address
          (some { m with refCount := m.refCount - 1 }) })) := by
  unfold release at h
  rcases hm : f.messages address with _ | m
  · simp [hm] at h
  · rw [hm] at h
    by_cases hpos : 0 < m.refCount
    · refine ⟨m, rfl, hpos, ?_⟩
      by_cases hone : m.refCount = 1
      · have hzero : m.refCount - 1 = 0 := by omega
        by_cases hallocated : (f.allocatedMessages address).isSome
        · simp only [Message.release, hpos, if_true, hzero, hallocated, Message.destroy,
            Option.map_some', Option.some.injEq, Prod.mk.injEq] at h
          obtain ⟨rfl, rfl⟩ := h
          exact .inl ⟨hone, hallocated, rfl, rfl⟩
        · simp [Message.release, hpos, hzero, hallocated] at h
      · have hzero : m.refCount - 1 ≠ 0 := by omega
        simp only [Message.release, hpos, if_true, hzero, if_false, Option.some.injEq,
          Prod.mk.injEq] at h
        obtain ⟨rfl, rfl⟩ := h
        exact .inr ⟨hone, rfl, rfl⟩
    · simp [Message.release, hpos] at h

theorem run_append (f : MessageFactory) (calls : List Call) (c : Call) :
    f.run (calls ++ [c]) = (f.run calls).bind fun (f', frees) =>
      (f'.call c).map fun (f'', last) => (f'', frees ++ [last]) := by
  simp only [run, List.foldl_append, List.foldl_cons, List.foldl_nil]

end MessageFactory

end Yojimbo
