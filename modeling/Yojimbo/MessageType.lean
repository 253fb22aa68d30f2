import Yojimbo.Message
/-!
# The type a created message reports

`YOJIMBO_DECLARE_MESSAGE_TYPE` stores the declared type with `SetMessageType`, and `m_type` is a
15-bit field: what `GetType` gives back is the type modulo `2^15`. A message that `Create` returns
for a type below `32768` reports that type; nothing bounds `numTypes`, and a factory that declares
type `32768` gets messages that report type `0` (`getType_truncates`).

`create_isSome` says when `Create` does return a message: for a type the factory class declares,
in range, when the allocator's next attempt succeeds.
-/

namespace Yojimbo

open MessageFactory

/-- Whether a line of the class, or of one of its base classes, declares `type`. -/
def FactoryClass.declares : FactoryClass → Int → Bool
  | .messageFactory, _ => false
  | .declare base messageTypes, type => base.declares type || messageTypes.any (·.1 == type)

theorem Message.getType_setType (m : Message) (type : Int) :
    (m.setType type).getType = type % 32768 := by
  simp only [Message.getType, Message.setType, BitVec.toNat_ofInt]
  exact Int.toNat_of_nonneg (Int.emod_nonneg _ (by decide))

theorem createInternal_of_not_declares : ∀ {c : FactoryClass} {a : Allocator} {type : Int},
    c.declares type = false → c.createInternal a type = (none, a)
  | .messageFactory, _, _, _ => rfl
  | .declare base messageTypes, a, type, h => by
    simp only [FactoryClass.declares, Bool.or_eq_false_iff] at h
    have hfind : messageTypes.find? (·.1 == type) = none :=
      List.find?_eq_none.mpr fun x hx => by simpa using List.any_eq_false.mp h.2 x hx
    simp only [FactoryClass.createInternal, createInternal_of_not_declares h.1, hfind]

theorem createInternal_isSome : ∀ {c : FactoryClass} {a : Allocator} {type : Int},
    c.declares type = true → a.succeeds a.next = true → (c.createInternal a type).1.isSome
  | .messageFactory, _, _, h, _ => by cases h
  | .declare base messageTypes, a, type, h, hok => by
    simp only [FactoryClass.createInternal]
    cases hbase : base.declares type
    · rw [createInternal_of_not_declares hbase]
      simp only [FactoryClass.declares, hbase, Bool.false_or, List.any_eq_true] at h
      obtain ⟨x, hx, hxt⟩ := h
      obtain ⟨y, hy⟩ := Option.isSome_iff_exists.mp
        (List.find?_isSome.mpr ⟨x, hx, hxt⟩ : (messageTypes.find? (·.1 == type)).isSome)
      simp [hy, Allocator.allocate, hok]
    · have hsome : (base.createInternal a type).1.isSome := createInternal_isSome hbase hok
      rcases hb : base.createInternal a type with ⟨_ | message, a'⟩ <;> rw [hb] at hsome
      · cases hsome
      · rfl

/-- `Create` returns a message for every type in range that the factory class declares, when the
allocator's next attempt succeeds. -/
theorem create_isSome {f : MessageFactory} {type : Int} (hlo : 0 ≤ type)
    (hhi : type < f.numTypes) (hdeclares : f.factoryClass.declares type = true)
    (hok : f.allocator.succeeds f.allocator.next = true) : (f.create type).isSome := by
  have hsome : (f.factoryClass.createInternal f.allocator type).1.isSome :=
    createInternal_isSome hdeclares hok
  unfold MessageFactory.create
  rcases hc : f.factoryClass.createInternal f.allocator type with ⟨_ | ⟨address, m⟩, a'⟩ <;>
    rw [hc] at hsome
  · cases hsome
  · simp [hlo, hhi]

/-- The message `Create` returns reports the type it was asked for, modulo `2^15`. -/
theorem create_getType {f f' : MessageFactory} {type : Int} {address : Nat}
    (h : f.create type = some (address, f')) :
    ∃ m, f'.messages address = some m ∧ m.getType = type % 32768 := by
  obtain ⟨-, -, m, allocator, hci, rfl⟩ := MessageFactory.create_some h
  obtain ⟨-, hsome⟩ := createInternal_spec f.factoryClass f.allocator type
  rw [hci] at hsome
  obtain ⟨⟨blockMessage, rfl⟩, -⟩ := hsome address _ rfl
  exact ⟨(Message.new blockMessage).setType type, by simp, Message.getType_setType _ _⟩

theorem create_getType_one : ∃ address f' m,
    (MessageFactory.new ⟨[], 0, fun _ => true⟩ 2
      (.declare .messageFactory [(0, false), (1, false)])).create 1 = some (address, f') ∧
    f'.messages address = some m ∧ m.getType = 1 := by
  obtain ⟨⟨address, f'⟩, h⟩ := Option.isSome_iff_exists.mp
    (create_isSome (f := MessageFactory.new ⟨[], 0, fun _ => true⟩ 2
      (.declare .messageFactory [(0, false), (1, false)])) (show (0 : Int) ≤ 1 by decide)
      (by decide) (by decide) rfl)
  obtain ⟨m, hm, htype⟩ := create_getType h
  exact ⟨address, f', m, h, hm, htype⟩

/-- A factory that declares type `32768`: the message `Create(32768)` returns reports type 0. -/
theorem getType_truncates : ∃ address f' m,
    (MessageFactory.new ⟨[], 0, fun _ => true⟩ 32769
      (.declare .messageFactory [(32768, false)])).create 32768 = some (address, f') ∧
    f'.messages address = some m ∧ m.getType = 0 :=
  ⟨_, _, _, rfl, rfl, by decide⟩

end Yojimbo
