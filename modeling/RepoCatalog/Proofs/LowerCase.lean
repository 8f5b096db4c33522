import RepoCatalog.Text.LowerCase

/-!
# Lower case of basic letters

On the names of the basic alphabet, full lower case and the case folding of the catalog agree.
-/
namespace RepoCatalog.Text

def IsAscii (s : String) : Prop :=
  ∀ c ∈ s.toList, c.toNat < 128

instance (s : String) : Decidable (IsAscii s) :=
  List.decidableBAll (fun c : Char => c.toNat < 128) s.toList

theorem toNat_le_of_le {a b : Char} (h : a ≤ b) : a.toNat ≤ b.toNat :=
  UInt32.le_iff_toNat_le.mp (Char.le_def.mp h)

theorem lowerAfter_of_ascii (before cs : List Char) (h : ∀ c ∈ cs, c.toNat < 128) :
    lowerAfter before cs = cs.map Ascii.lowerChar := by
  induction cs generalizing before with
  | nil => rfl
  | cons c cs ih =>
      have hc := h c List.mem_cons_self
      have hsigma : c ≠ 'Σ' := by
        rintro rfl
        exact absurd hc (by decide)
      have hdotted : c ≠ 'İ' := by
        rintro rfl
        exact absurd hc (by decide)
      unfold lowerAfter
      simp only []
      rw [if_neg hsigma, if_neg hdotted, ih _ fun x hx => h x (List.mem_cons_of_mem c hx),
        List.map_cons]
      unfold lowerSimple
      rw [if_pos hc]

theorem lowerCase_of_ascii {s : String} (h : IsAscii s) : lowerCase s = Ascii.lower s := by
  unfold lowerCase Ascii.lower
  rw [lowerAfter_of_ascii [] s.toList h]

namespace Ascii

theorem toNat_lowerChar_lt {c : Char} : (lowerChar c).toNat < 128 ↔ c.toNat < 128 := by
  unfold lowerChar
  split
  · rename_i hupper
    have hle : c.toNat ≤ 90 := toNat_le_of_le hupper.2
    have hvalid : (c.toNat + 32).isValidChar := .inl (by omega)
    have hmoved : (Char.ofNat (c.toNat + 32)).toNat = c.toNat + 32 := by
      unfold Char.ofNat
      rw [dif_pos hvalid]
      rfl
    rw [hmoved]
    omega
  · rfl

theorem isAscii_lower {s : String} : IsAscii (lower s) ↔ IsAscii s := by
  unfold IsAscii lower
  rw [String.toList_ofList]
  simp only [List.forall_mem_map, toNat_lowerChar_lt]

end Ascii

theorem lowerCase_eq_lower {s : String} (h : IsAscii (Ascii.lower s)) :
    lowerCase s = Ascii.lower s :=
  lowerCase_of_ascii (Ascii.isAscii_lower.mp h)

end RepoCatalog.Text
