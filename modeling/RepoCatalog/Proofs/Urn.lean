import RepoCatalog.Service

/-!
# Reading the names of services

The name that is written for a service is read back as its kind and id, as long as the id is one
that a record can have. Hence no two services share a name.
-/
namespace RepoCatalog

namespace Text

theorem splitFirst?_append {sep : Char} {before after : List Char} (h : sep ∉ before) :
    splitFirst? sep (before ++ sep :: after) = some (before, after) := by
  have hkeep : ∀ c ∈ before, (c != sep) = true := by
    intro c hc
    rw [bne_iff_ne]
    rintro rfl
    exact h hc
  unfold splitFirst?
  rw [List.dropWhile_append_of_pos hkeep, List.takeWhile_append_of_pos hkeep]
  simp

namespace Decimal

theorem isDigit_eq (c : Char) : Ascii.isDigit c = c.isDigit := by
  unfold Ascii.isDigit Char.isDigit
  rfl

theorem valueFrom_of_digits {cs : List Char} (h : ∀ c ∈ cs, c.isDigit = true) (n : Nat) :
    valueFrom n cs = some (Nat.ofDigitChars 10 cs n) := by
  induction cs generalizing n with
  | nil => rw [valueFrom, Nat.ofDigitChars_nil]
  | cons c cs ih =>
      rw [valueFrom, isDigit_eq, if_pos (h c List.mem_cons_self),
        ih fun d hd => h d (List.mem_cons_of_mem c hd), Nat.ofDigitChars_cons]
      rfl

theorem value?_toDigits (n : Nat) : value? (Nat.toDigits 10 n) = some n := by
  have hdigits : ∀ c ∈ Nat.toDigits 10 n, c.isDigit = true :=
    fun c hc => Nat.isDigit_of_mem_toDigits (by decide) (by decide) hc
  have hvalue := valueFrom_of_digits hdigits 0
  rw [Nat.ofDigitChars_ten_toDigits] at hvalue
  cases hcs : Nat.toDigits 10 n with
  | nil => exact absurd hcs Nat.toDigits_ne_nil
  | cons c cs =>
      rw [hcs] at hvalue
      exact hvalue

theorem signed?_digits {least most : Int} {n : Nat} {s : String}
    (hs : s.toList = Nat.toDigits 10 n) :
    signed? least most s =
      (some (Int.ofNat n)).filter fun i => least ≤ i && i ≤ most := by
  have hhead : ∀ c cs, s.toList = c :: cs → c ≠ '+' ∧ c ≠ '-' := by
    intro c cs hcons
    have hdigit : c.isDigit = true :=
      Nat.isDigit_of_mem_toDigits (by decide) (by decide) (hs ▸ hcons ▸ List.mem_cons_self)
    constructor <;> (rintro rfl; revert hdigit; decide)
  unfold signed?
  split
  · rename_i cs hcs
    exact absurd rfl (hhead _ cs hcs).1
  · rename_i cs hcs
    exact absurd rfl (hhead _ cs hcs).2
  · rw [hs, value?_toDigits]
    rfl

theorem signed?_minus {least most : Int} {n : Nat} {s : String}
    (hs : s.toList = '-' :: Nat.toDigits 10 n) :
    signed? least most s =
      (some (-Int.ofNat n)).filter fun i => least ≤ i && i ≤ most := by
  unfold signed?
  rw [hs]
  simp only [value?_toDigits]
  rfl

theorem signed?_toString (least most i : Int) :
    signed? least most (toString i) = (some i).filter fun i => least ≤ i && i ≤ most := by
  rw [Int.toString_eq_repr, Int.repr_eq_if]
  split
  · rename_i h
    rw [signed?_digits Nat.toList_repr, Int.ofNat_eq_natCast, Int.toNat_of_nonneg h]
  · rename_i h
    rw [signed?_minus (n := (-i).toNat) (by rw [String.toList_append, Nat.toList_repr]; rfl),
      Int.ofNat_eq_natCast, Int.toNat_of_nonneg (by omega), Int.neg_neg]

end Decimal

end Text

namespace Urn

def InRange (id : Int) : Prop :=
  leastId ≤ id ∧ id ≤ mostId

theorem colon_notMem_name (kind : Kind) : ':' ∉ (Text.Ascii.lower kind.name).toList := by
  cases kind <;> decide

theorem toList_format (kind : Kind) (id : Int) :
    (format kind id).toList =
      "extsvc".toList ++
        ':' :: ((Text.Ascii.lower kind.name).toList ++ ':' :: (toString id).toList) := by
  have hscheme : "extsvc:".toList = "extsvc".toList ++ [':'] := by decide
  have hcolon : ":".toList = [':'] := by decide
  simp only [format, String.toList_append, hscheme, hcolon, List.append_assoc, List.cons_append,
    List.nil_append]

theorem parse?_format (kind : Kind) (id : Int) :
    parse? (format kind id) = ((some id).filter fun i => leastId ≤ i && i ≤ mostId).map
      fun i => (Text.Ascii.lower kind.name, i) := by
  have hscheme : ':' ∉ "extsvc".toList := by decide
  have hguard : (guard ("extsvc".toList = "extsvc".toList) : Option Unit) = some () := if_pos rfl
  unfold parse?
  rw [toList_format, Text.splitFirst?_append hscheme]
  change (guard ("extsvc".toList = "extsvc".toList) : Option Unit).bind (fun _ => _) = _
  rw [hguard, Option.bind_some, Text.splitFirst?_append (colon_notMem_name kind)]
  change (Text.Decimal.signed? leastId mostId (String.ofList (toString id).toList)).bind _ = _
  rw [String.ofList_toList, String.ofList_toList, Text.Decimal.signed?_toString]
  cases Option.filter (fun i => decide (leastId ≤ i) && decide (i ≤ mostId)) (some id) <;> rfl

/-- The id in the name of a service is read back if a record can have it, and else nothing is. -/
theorem serviceId?_format (kind : Kind) (id : Int) :
    serviceId? (format kind id) = (some id).filter fun i => leastId ≤ i && i ≤ mostId := by
  unfold serviceId?
  rw [parse?_format]
  cases Option.filter (fun i => decide (leastId ≤ i) && decide (i ≤ mostId)) (some id) <;> rfl

theorem serviceId?_format_of_inRange (kind : Kind) {id : Int} (h : InRange id) :
    serviceId? (format kind id) = some id := by
  rw [serviceId?_format]
  simp [h.1, h.2]

theorem parts_of_format {kind kind' : Kind} {i j : Int} (h : format kind i = format kind' j) :
    Text.Ascii.lower kind.name = Text.Ascii.lower kind'.name ∧ toString i = toString j := by
  have hscheme : ':' ∉ "extsvc".toList := by decide
  have hlists := congrArg (fun s => Text.splitFirst? ':' (String.toList s)) h
  simp only [toList_format, Text.splitFirst?_append hscheme, Option.some.injEq, Prod.mk.injEq,
    true_and] at hlists
  have hparts := congrArg (Text.splitFirst? ':') hlists
  rw [Text.splitFirst?_append (colon_notMem_name kind),
    Text.splitFirst?_append (colon_notMem_name kind')] at hparts
  simp only [Option.some.injEq, Prod.mk.injEq] at hparts
  exact ⟨String.toList_inj.mp hparts.1, String.toList_inj.mp hparts.2⟩

theorem format_id_inj {kind kind' : Kind} {i j : Int} (h : format kind i = format kind' j) :
    i = j := by
  have htext : toString i = toString j := (parts_of_format h).2
  -- Read within the bounds that only `i` meets.
  have hread := Text.Decimal.signed?_toString i i i
  rw [htext, Text.Decimal.signed?_toString] at hread
  have hmem : i ∈ (some j).filter fun n => i ≤ n && n ≤ i := by
    rw [hread]
    simp
  exact (Option.some.inj (Option.mem_filter_iff.mp hmem).1).symm

theorem format_kind_inj {kind kind' : Kind} {i j : Int} (h : format kind i = format kind' j) :
    kind = kind' := by
  have hname := (parts_of_format h).1
  cases kind <;> cases kind' <;> first | rfl | exact absurd hname (by decide)

theorem eq_of_serviceId?_format {kind : Kind} {id j : Int}
    (h : serviceId? (format kind id) = some j) : j = id := by
  rw [serviceId?_format] at h
  exact (Option.some.inj (Option.mem_filter_iff.mp h).1).symm

end Urn

end RepoCatalog
