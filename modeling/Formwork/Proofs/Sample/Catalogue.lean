import Formwork.Proofs.Property.Ordered
import Formwork.Sample.Catalogue

/-!
# The sample catalogue is sound

The new beans of the sample catalogue have their maps in order (`Sample.ordered_of_mem_fields`), so
that what holds of binding with a sound catalogue holds of binding with this one
(`Sample.sound_bindContext`).
-/

namespace Formwork

theorem Fields.ordered_optional (s : Schema) : (Fields.optional s).Ordered := .absent s

theorem Fields.ordered_initial (s : Schema) : (Fields.initial s).Ordered := by
  unfold Fields.initial
  cases h : BindContext.initial? _ s with
  | none => exact .scalar (.bool false)
  | some v =>
    have hsound : BindContext.Sound
        { converters := .empty, locale := .us, freshBean := fun _ => none } :=
      ⟨by simp, by simp⟩
    exact BindContext.ordered_of_initial? hsound h

namespace Sample

open Fields

theorem ordered_of_mem_addressFields (city : Option String) :
    ∀ f ∈ addressFields city, f.2.Ordered := by
  cases city with
  | none => simp [addressFields, ordered_optional]
  | some c => simp [addressFields, ordered_optional, Value.Ordered.present, Value.Ordered.scalar]

theorem ordered_of_mem_fields {t : BeanType} (ht : t ∈ catalogue)
    {fields : List (String × Value)} (hf : t.fields? = some fields) :
    ∀ f ∈ fields, f.2.Ordered := by
  have hquantities : (Value.sequence (integer .int64) [.scalar (.integer .int64 7)]).Ordered :=
    .sequence (by simpa using Value.Ordered.scalar _)
  have hfixed : (Value.bean address.descriptor (addressFields (some "Oslo"))).Ordered :=
    .bean (ordered_of_mem_addressFields _)
  simp only [catalogue, List.mem_cons, List.not_mem_nil, or_false] at ht
  rcases ht with rfl | rfl | rfl | rfl | rfl | rfl | rfl | rfl | rfl | rfl | rfl | rfl | rfl | rfl |
    rfl
  all_goals cases hf
  all_goals simp [ordered_optional, ordered_initial, hquantities, hfixed, Value.Ordered.scalar]

/-- The beans of the sample catalogue are sound to bind with. -/
theorem sound_bindContext (converters : ConverterRegistry) (locale : Locale) :
    (bindContext converters locale).Sound :=
  BeanCatalogue.sound rfl fun _ ht _ hf => ordered_of_mem_fields ht hf

end Sample

end Formwork
