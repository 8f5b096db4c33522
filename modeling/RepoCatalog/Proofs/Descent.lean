import RepoCatalog.Url.Parser
import Mathlib.Data.List.TakeWhile

/-!
# Paths that lead down

The segments of a path are walked from a folder: two dots lead one folder up, and any other segment
but a single dot leads one folder down. A path that never leads up further than it has led down ends
below the folder where it began. Any other path leaves that folder, and ends where it would have
ended from another one.
-/
namespace RepoCatalog

namespace Url

def segmentsOf (c : SchemeClass) (cs : List Char) : List String :=
  (cs.splitOnP (isSlash c)).map (percentEncode EncodeSet.path)

/-- Walks segments one after another. No slash follows the last one. -/
def walkSegments (c : SchemeClass) (parts : List String) : List String → List String
  | [] => parts
  | segment :: rest => walkSegments c (walk c parts segment rest.isEmpty) rest

/-- How far down a segment leads from `depth` folders down. -/
def depthAfter (depth : Nat) (segment : String) : Nat :=
  if isTwoDots segment then depth - 1 else if isOneDot segment then depth else depth + 1

/-- Whether segments lead, from `depth` folders down, above the folder where the counting began. -/
def climbs : Nat → List String → Bool
  | _, [] => false
  | depth, segment :: rest =>
    isTwoDots segment && depth == 0 || climbs (depthAfter depth segment) rest

theorem segmentsOf_ne_nil (c : SchemeClass) (cs : List Char) : segmentsOf c cs ≠ [] := by
  unfold segmentsOf
  exact mt List.map_eq_nil_iff.mp (List.splitOnP_ne_nil _ cs)

theorem walkAll_eq (c : SchemeClass) (parts : List String) (cs : List Char) :
    walkAll c parts cs = walkSegments c parts (segmentsOf c cs) := by
  have hbefore : ∀ (cs : List Char), ∀ ch ∈ cs.takeWhile fun ch => !isSlash c ch,
      isSlash c ch = false := fun cs ch hch => by simpa using List.mem_takeWhile_imp hch
  fun_induction walkAll c parts cs with
  | case1 parts cs segment hrest =>
      have hall : cs = segment := by
        have := List.takeWhile_append_dropWhile (p := fun ch => !isSlash c ch) (l := cs)
        rw [hrest, List.append_nil] at this
        exact this.symm
      have hsplit : segmentsOf c cs = [percentEncode EncodeSet.path segment] := by
        unfold segmentsOf
        rw [List.splitOnP_eq_singleton (by rw [hall]; exact hbefore cs), ← hall]
        rfl
      rw [hsplit]
      rfl
  | case2 parts cs segment ch rest hrest hlength ih =>
      have hcs : cs = segment ++ ch :: rest := by
        rw [← hrest]
        exact List.takeWhile_append_dropWhile.symm
      have hch : isSlash c ch = true := by
        have := List.head?_dropWhile_not (fun ch => !isSlash c ch) cs
        rw [hrest] at this
        simpa using this
      have hsplit : segmentsOf c cs =
          percentEncode EncodeSet.path segment :: segmentsOf c rest := by
        unfold segmentsOf
        rw [hcs, List.splitOnP_append_cons_of_forall_mem (hbefore cs) ch hch]
        rfl
      rw [ih, hsplit, walkSegments, List.isEmpty_eq_false_iff.mpr (segmentsOf_ne_nil c rest)]

section Walk

variable (c : SchemeClass) (folders : List String) {parts : List String}

theorem shorten_append (hparts : parts ≠ []) : ∃ parts',
    shorten c (folders ++ parts) = folders ++ parts' ∧ parts.length - 1 ≤ parts'.length := by
  unfold shorten
  split
  · rename_i drive hdrive
    obtain ⟨rfl, rfl⟩ : folders = [] ∧ parts = [drive] := by
      simpa [List.append_eq_singleton_iff, hparts] using hdrive
    split
    · exact ⟨[drive], rfl, by simp⟩
    · exact ⟨[], rfl, by simp⟩
  · exact ⟨parts.dropLast, List.dropLast_append_of_ne_nil hparts, List.length_dropLast.ge⟩

/-- One segment is walked below the folders, if it does not lead above them. The walk may lie deeper
than `depth` says, since the drive of a file is never left. -/
theorem walk_append {segment : String} {depth : Nat} (isLast : Bool)
    (hstay : (isTwoDots segment && depth == 0) = false) (hdepth : depth ≤ parts.length) : ∃ parts',
    walk c (folders ++ parts) segment isLast = folders ++ parts' ∧
      depthAfter depth segment ≤ parts'.length ∧ (isLast = true → parts' ≠ []) := by
  have hclose : ∀ {parts' : List String}, depthAfter depth segment ≤ parts'.length → ∃ parts'',
      (if isLast then folders ++ parts' ++ [""] else folders ++ parts') = folders ++ parts'' ∧
        depthAfter depth segment ≤ parts''.length ∧ (isLast = true → parts'' ≠ []) := by
    intro parts' hlength
    cases isLast with
    | false => exact ⟨parts', rfl, hlength, fun h => absurd h Bool.false_ne_true⟩
    | true => exact ⟨parts' ++ [""], List.append_assoc _ _ _, by simp; omega, by simp⟩
  unfold walk
  unfold depthAfter at hclose ⊢
  by_cases htwo : isTwoDots segment
  · simp only [if_pos htwo] at hclose ⊢
    have hparts : parts ≠ [] := by
      rintro rfl
      rw [htwo, Nat.le_zero.mp hdepth] at hstay
      exact Bool.false_ne_true hstay.symm
    obtain ⟨parts', hshorten, hlength⟩ := shorten_append c folders hparts
    rw [hshorten]
    exact hclose (Nat.le_trans (Nat.sub_le_sub_right hdepth 1) hlength)
  · simp only [if_neg htwo] at hclose ⊢
    by_cases hone : isOneDot segment
    · simp only [if_pos hone] at hclose ⊢
      exact hclose hdepth
    · simp only [if_neg hone]
      by_cases hdrive : c = .file ∧ (folders ++ parts).isEmpty ∧ isDriveLetter segment.toList
      · obtain ⟨rfl, rfl⟩ := List.append_eq_nil_iff.mp (List.isEmpty_iff.mp hdrive.2.1)
        rw [if_pos hdrive]
        exact ⟨_, rfl, Nat.succ_le_succ hdepth, fun _ => List.cons_ne_nil _ _⟩
      · rw [if_neg hdrive]
        exact ⟨parts ++ [segment], List.append_assoc _ _ _, by simpa using hdepth, by simp⟩

theorem walkSegments_append {segments : List String} {depth : Nat} (hne : segments ≠ [])
    (hclimb : climbs depth segments = false) (hdepth : depth ≤ parts.length) : ∃ parts',
    walkSegments c (folders ++ parts) segments = folders ++ parts' ∧ parts' ≠ [] := by
  induction segments generalizing depth parts with
  | nil => exact absurd rfl hne
  | cons segment rest ih =>
      obtain ⟨hstay, hrest⟩ := Bool.or_eq_false_iff.mp hclimb
      obtain ⟨parts', hwalk, hdepth', hlast⟩ := walk_append c folders rest.isEmpty hstay hdepth
      rw [walkSegments, hwalk]
      cases rest with
      | nil => exact ⟨parts', rfl, hlast rfl⟩
      | cons => exact ih (List.cons_ne_nil _ _) hrest hdepth'

theorem walk_cons {segment : String} (hstay : (isTwoDots segment && parts.length == 0) = false) :
    ∃ parts', parts'.length = depthAfter parts.length segment ∧
      ∀ folder, walk c (folder :: parts) segment false = folder :: parts' := by
  unfold walk depthAfter
  by_cases htwo : isTwoDots segment
  · simp only [if_pos htwo]
    cases parts with
    | nil => exact absurd (hstay.symm.trans (by rw [htwo]; rfl)) Bool.false_ne_true
    | cons part parts => exact ⟨(part :: parts).dropLast, List.length_dropLast, fun _ => rfl⟩
  · simp only [if_neg htwo]
    by_cases hone : isOneDot segment
    · simp only [if_pos hone]
      exact ⟨parts, rfl, fun _ => rfl⟩
    · simp only [if_neg hone]
      refine ⟨parts ++ [segment], by simp, fun folder => ?_⟩
      rw [if_neg fun h => Bool.false_ne_true h.2.1]
      rfl

/-- Segments that climb leave the folder where the walk began, whichever it was. -/
theorem walkSegments_of_climbs {segments : List String} {x y : String}
    (hx : isNormalDriveLetter x = false) (hy : isNormalDriveLetter y = false)
    (hclimb : climbs parts.length segments = true) :
    walkSegments c (x :: parts) segments = walkSegments c (y :: parts) segments := by
  induction segments generalizing parts with
  | nil => exact absurd hclimb Bool.false_ne_true
  | cons segment rest ih =>
      rw [walkSegments, walkSegments]
      by_cases hstay : (isTwoDots segment && parts.length == 0) = true
      · obtain ⟨htwo, hparts⟩ := Bool.and_eq_true_iff.mp hstay
        obtain rfl := List.eq_nil_of_length_eq_zero (beq_iff_eq.mp hparts)
        simp [walk, htwo, shorten, hx, hy]
      · rw [Bool.not_eq_true] at hstay
        rw [climbs, hstay, Bool.false_or] at hclimb
        obtain ⟨parts', hlength, hwalk⟩ := walk_cons c hstay
        cases rest with
        | nil => exact absurd hclimb Bool.false_ne_true
        | cons other rest =>
            rw [List.isEmpty_cons, hwalk, hwalk]
            exact ih (hlength ▸ hclimb)

theorem readSegments_append {cs : List Char} (hclimb : climbs 0 (segmentsOf c cs) = false)
    (hfolders : c = .file → folders.head? ≠ some "") : ∃ more,
    readSegments c folders cs = folders ++ more ∧ more ≠ [] := by
  obtain ⟨more, hwalk, hne⟩ : ∃ more,
      walkSegments c (folders ++ []) (segmentsOf c cs) = folders ++ more ∧ more ≠ [] :=
    walkSegments_append c folders (segmentsOf_ne_nil c cs) hclimb (Nat.le_refl 0)
  rw [List.append_nil, ← walkAll_eq] at hwalk
  unfold readSegments
  simp only [hwalk]
  by_cases hc : c = .file
  · rw [if_pos hc]
    cases folders with
    | nil =>
        split
        · exact ⟨[""], rfl, List.cons_ne_nil _ _⟩
        · rename_i hparts
          exact ⟨_, (List.nil_append _).symm, hparts⟩
    | cons folder folders =>
        have hfolder : folder.isEmpty = false := by simpa using hfolders hc
        rw [List.cons_append, List.dropWhile_cons_of_neg (Bool.not_eq_true _ ▸ hfolder)]
        exact ⟨more, rfl, hne⟩
  · rw [if_neg hc]
    exact ⟨more, rfl, hne⟩

theorem readSegments_of_climbs {cs : List Char} {x y : String}
    (hx : isNormalDriveLetter x = false) (hy : isNormalDriveLetter y = false)
    (hclimb : climbs 0 (segmentsOf c cs) = true) :
    readSegments c [x] cs = readSegments c [y] cs := by
  have hwalk : walkSegments c [x] (segmentsOf c cs) = walkSegments c [y] (segmentsOf c cs) :=
    walkSegments_of_climbs c hx hy hclimb
  rw [← walkAll_eq, ← walkAll_eq] at hwalk
  unfold readSegments
  rw [hwalk]

end Walk

end Url

end RepoCatalog
