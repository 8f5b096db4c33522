import RepoCatalog.Proofs.Urn

/-!
# How the names of services are spelled

Exactly the texts `extsvc:<kind>:<id>` name a service, with a kind without a colon and an id in
decimal that a record can have. What is written for a service is one of several spellings of it, so
that no two services share a name and each is read back from its own.
-/
namespace RepoCatalog

namespace Text

theorem splitFirst?_eq_some_iff {sep : Char} {cs before after : List Char} :
    splitFirst? sep cs = some (before, after) ↔ sep ∉ before ∧ cs = before ++ sep :: after := by
  constructor
  · intro h
    have hparts := List.takeWhile_append_dropWhile (p := (· != sep)) (l := cs)
    unfold splitFirst? at h
    split at h
    · cases h
    · rename_i c rest hrest
      cases h
      have hsep : c = sep := by
        have hhead := List.head?_dropWhile_not (· != sep) cs
        rw [hrest] at hhead
        simpa using hhead
      rw [hrest, hsep] at hparts
      refine ⟨fun hmem => ?_, hparts.symm⟩
      simpa using List.all_eq_true.mp List.all_takeWhile sep hmem
  · rintro ⟨hsep, rfl⟩
    exact splitFirst?_append hsep

namespace Decimal

def Digits (cs : List Char) : Prop :=
  cs ≠ [] ∧ ∀ c ∈ cs, '0' ≤ c ∧ c ≤ '9'

/-- A whole number in decimal, with a sign or none; leading zeros do not matter. -/
inductive Numeral : List Char → Int → Prop
  | bare {ds : List Char} : Digits ds → Numeral ds (Nat.ofDigitChars 10 ds 0)
  | plus {ds : List Char} : Digits ds → Numeral ('+' :: ds) (Nat.ofDigitChars 10 ds 0)
  | minus {ds : List Char} : Digits ds → Numeral ('-' :: ds) (-Nat.ofDigitChars 10 ds 0)

theorem isDigit_iff {c : Char} : Ascii.isDigit c = true ↔ '0' ≤ c ∧ c ≤ '9' := by
  simp [Ascii.isDigit]

theorem valueFrom_eq_some_iff {cs : List Char} {n m : Nat} :
    valueFrom n cs = some m ↔
      (∀ c ∈ cs, Ascii.isDigit c = true) ∧ m = Nat.ofDigitChars 10 cs n := by
  induction cs generalizing n with
  | nil =>
      rw [valueFrom, Nat.ofDigitChars_nil, Option.some.injEq]
      exact ⟨fun h => ⟨List.forall_mem_nil _, h.symm⟩, fun h => h.2.symm⟩
  | cons c cs ih =>
      rw [valueFrom, Nat.ofDigitChars_cons, List.forall_mem_cons]
      split
      · rename_i hc
        rw [ih, and_assoc]
        exact (and_iff_right hc).symm
      · rename_i hc
        simp [hc]

theorem map_value?_eq_some_iff {f : Nat → Int} {cs : List Char} {n : Int} :
    (value? cs).map f = some n ↔ Digits cs ∧ n = f (Nat.ofDigitChars 10 cs 0) := by
  cases cs with
  | nil => simp [value?, Digits]
  | cons c cs =>
      have hdigits : Digits (c :: cs) ↔ ∀ d ∈ c :: cs, Ascii.isDigit d = true := by
        simp [Digits, isDigit_iff]
      rw [hdigits, Option.map_eq_some_iff]
      change (∃ m, valueFrom 0 (c :: cs) = some m ∧ f m = n) ↔ _
      simp only [valueFrom_eq_some_iff, and_assoc, exists_and_left, exists_eq_left]
      exact and_congr_right fun _ => eq_comm

theorem Digits.head {c : Char} {cs : List Char} (h : Digits (c :: cs)) : c ≠ '+' ∧ c ≠ '-' := by
  have hdigit := h.2 c List.mem_cons_self
  constructor <;>
  · rintro rfl
    revert hdigit
    decide

theorem signed?_eq_some_iff {least most n : Int} {s : String} :
    signed? least most s = some n ↔ Numeral s.toList n ∧ least ≤ n ∧ n ≤ most := by
  have hbounds : ∀ o : Option Int,
      o.filter (fun i => least ≤ i && i ≤ most) = some n ↔ o = some n ∧ least ≤ n ∧ n ≤ most := by
    intro o
    simp [Option.filter_eq_some_iff]
  unfold signed?
  rw [hbounds, and_congr_left_iff]
  intro _
  generalize s.toList = text
  split
  · rename_i cs
    rw [map_value?_eq_some_iff]
    constructor
    · rintro ⟨hdigits, rfl⟩
      exact .plus hdigits
    · intro h
      cases h with
      | bare hdigits => exact absurd rfl hdigits.head.1
      | plus hdigits => exact ⟨hdigits, rfl⟩
  · rename_i cs
    rw [map_value?_eq_some_iff]
    constructor
    · rintro ⟨hdigits, rfl⟩
      exact .minus hdigits
    · intro h
      cases h with
      | bare hdigits => exact absurd rfl hdigits.head.2
      | minus hdigits => exact ⟨hdigits, rfl⟩
  · rename_i hplus hminus
    rw [map_value?_eq_some_iff]
    constructor
    · rintro ⟨hdigits, rfl⟩
      exact .bare hdigits
    · intro h
      cases h with
      | bare hdigits => exact ⟨hdigits, rfl⟩
      | plus hdigits => exact absurd rfl (hplus _)
      | minus hdigits => exact absurd rfl (hminus _)

end Decimal

end Text

namespace Urn

/-- That a text is `extsvc:<kind>:<id>`. The kind may be empty, and the id has any number of leading
zeros and a sign or none. -/
structure Spells (s kind : String) (id : Int) : Prop where
  text : ∃ numeral, s.toList = "extsvc:".toList ++ kind.toList ++ ':' :: numeral ∧
    Text.Decimal.Numeral numeral id
  no_colon : ':' ∉ kind.toList
  inRange : InRange id

theorem spelled_eq (kind numeral : List Char) :
    "extsvc:".toList ++ kind ++ ':' :: numeral =
      "extsvc".toList ++ ':' :: (kind ++ ':' :: numeral) := by
  have hscheme : "extsvc:".toList = "extsvc".toList ++ [':'] := by decide
  rw [hscheme, List.append_assoc, List.append_assoc]
  rfl

theorem parse?_eq_some_iff {s kind : String} {id : Int} :
    parse? s = some (kind, id) ↔ Spells s kind id := by
  have hscheme : ':' ∉ "extsvc".toList := by decide
  constructor
  · intro h
    unfold parse? at h
    obtain ⟨⟨scheme, rest⟩, hrest, h⟩ := Option.bind_eq_some_iff.mp h
    obtain ⟨_, hguard, h⟩ := Option.bind_eq_some_iff.mp h
    obtain ⟨⟨chars, numeral⟩, hnumeral, h⟩ := Option.bind_eq_some_iff.mp h
    obtain ⟨i, hid, heq⟩ := Option.bind_eq_some_iff.mp h
    obtain ⟨-, hs⟩ := Text.splitFirst?_eq_some_iff.mp hrest
    obtain ⟨hcolon, rfl⟩ := Text.splitFirst?_eq_some_iff.mp hnumeral
    obtain ⟨hvalue, hrange⟩ := Text.Decimal.signed?_eq_some_iff.mp hid
    have hname : scheme = "extsvc".toList := by
      by_cases hname : scheme = "extsvc".toList
      · exact hname
      · have hfail : (guard (scheme = "extsvc".toList) : Option Unit) = none := if_neg hname
        rw [hfail] at hguard
        cases hguard
    subst hname
    cases heq
    rw [String.toList_ofList] at hvalue
    have hkind : (String.ofList chars).toList = chars := String.toList_ofList
    exact ⟨⟨numeral, by rw [hs, spelled_eq, hkind], hvalue⟩, by rwa [hkind], hrange⟩
  · rintro ⟨⟨numeral, hs, hvalue⟩, hcolon, hrange⟩
    have hid : Text.Decimal.signed? leastId mostId (String.ofList numeral) = some id :=
      Text.Decimal.signed?_eq_some_iff.mpr ⟨by rwa [String.toList_ofList], hrange⟩
    have hguard : (guard ("extsvc".toList = "extsvc".toList) : Option Unit) = some () := if_pos rfl
    have hsplit : Text.splitFirst? ':' s.toList =
        some ("extsvc".toList, kind.toList ++ ':' :: numeral) := by
      rw [hs, spelled_eq, Text.splitFirst?_append hscheme]
    refine Option.bind_eq_some_iff.mpr ⟨_, hsplit, Option.bind_eq_some_iff.mpr ⟨(), hguard, ?_⟩⟩
    refine Option.bind_eq_some_iff.mpr ⟨_, Text.splitFirst?_append hcolon, ?_⟩
    refine Option.bind_eq_some_iff.mpr ⟨id, hid, ?_⟩
    rw [String.ofList_toList]
    rfl

/-- A service is read back from its name, which no other service has. The texts that are read are
exactly the spellings of names. -/
theorem names_identify :
    (∀ kind id, InRange id →
      parse? (format kind id) = some (Text.Ascii.lower kind.name, id)) ∧
    (∀ kind id kind' id', format kind id = format kind' id' → kind = kind' ∧ id = id') ∧
    (∀ s, (parse? s).isSome = true ↔ ∃ kind id, Spells s kind id) ∧
    ∀ s kind id, parse? s = some (kind, id) ↔ Spells s kind id := by
  refine ⟨?_, ?_, ?_, fun s kind id => parse?_eq_some_iff⟩
  · intro kind id h
    rw [parse?_format]
    simp [h.1, h.2]
  · intro kind id kind' id' h
    exact ⟨format_kind_inj h, format_id_inj h⟩
  · intro s
    simp only [Option.isSome_iff_exists, Prod.exists, parse?_eq_some_iff]

/-- The least id of all is read back. -/
theorem names_identify_least :
    InRange leastId ∧
      parse? (format .bitbucketCloud leastId) = some ("bitbucketcloud", leastId) ∧
      format .bitbucketCloud leastId ≠ format .other leastId := by
  have hrange : InRange leastId := by
    unfold InRange
    decide
  obtain ⟨hread, hinj, -⟩ := names_identify
  refine ⟨hrange, ?_, ?_⟩
  · rw [hread _ _ hrange]
    decide
  · intro h
    cases (hinj _ _ _ _ h).1

end Urn

end RepoCatalog
