import RepoCatalog.Proofs.Descent

/-!
# Confined texts

A text that is joined to a base is mostly a path below the base's folder. But it may lead above that
folder, begin at the root of the host, or stand for itself: on another host, or with another scheme.
The texts that do none of these are confined; they stay under every base with the scheme, and no
others do.
-/
namespace RepoCatalog

namespace Url

/-- What a text adds to a base with the scheme, if it does not stand for itself. -/
def relativePart? (scheme : String) (cs : List Char) : Option (List Char) :=
  match splitScheme? cs with
  | none => some cs
  | some (own, rest) =>
    if own = scheme ∧ (SchemeClass.of scheme).isSpecial then some rest else none

/-- What is read of a text that does not stand for itself. -/
def readOn [HostNames] (base : Url) (cs : List Char) : Except Error Url :=
  if base.schemeClass = .file then parseFile (some base) cs else parseRelative base cs

/-- Whether a text adds a query, a fragment or a path that leads down. A path begins at the root if
it begins with a slash, and in a file also if it begins with a drive. -/
def descends (c : SchemeClass) : List Char → Bool
  | [] => true
  | ch :: rest =>
    let cs := ch :: rest
    endsPath ch || !(ch == '/' || ch == '\\') && !(c == .file && startsWithDriveLetter cs) &&
      !climbs 0 (segmentsOf c (cs.takeWhile fun ch => !endsPath ch))

/-- Whether a text stays under every base with the scheme. -/
def confined (scheme path : String) : Bool :=
  (relativePart? scheme (significant path)).any (descends (.of scheme))

theorem of_eq_file {scheme : String} : SchemeClass.of scheme = .file ↔ scheme = "file" := by
  unfold SchemeClass.of
  by_cases h : scheme = "file"
  · simp [h]
  · rw [if_neg h]
    split <;> simp [h]

theorem endsPath_eq_false_iff {ch : Char} : endsPath ch = false ↔ ch ≠ '?' ∧ ch ≠ '#' := by
  unfold endsPath
  rw [Bool.or_eq_false_iff, beq_eq_false_iff_ne, beq_eq_false_iff_ne]

theorem readOn_of_file [HostNames] (base : Url) {cs : List Char}
    (hfile : SchemeClass.of base.scheme = .file) : readOn base cs = parseFile (some base) cs :=
  if_pos hfile

theorem readOn_of_not_file [HostNames] (base : Url) {cs : List Char}
    (hfile : SchemeClass.of base.scheme ≠ .file) : readOn base cs = parseRelative base cs :=
  if_neg hfile

theorem readOn_hash [HostNames] (base : Url) (rest : List Char) : readOn base ('#' :: rest) =
    .ok { base with fragment := (readEnd base.schemeClass ('#' :: rest)).2 } := by
  unfold readOn
  split
  · rename_i hfile
    rw [hfile]
    cases rest <;> rfl
  · rfl

theorem join_of_noScheme [HostNames] {base : Url} {s : String} {parts : List String}
    (hpath : base.path = .segments parts) (hnone : splitScheme? (significant s) = none) :
    base.join s = readOn base (significant s) := by
  unfold join parseWith
  dsimp only
  rw [hnone]
  dsimp only
  split
  · rename_i hcs
    rw [hcs, readOn_hash]
  · rename_i htext _
    rw [hpath] at htext
    exact Path.noConfusion htext
  · rfl

/-- Two slashes after the base's own scheme begin an authority, which a file reads for itself. -/
theorem join_of_ownScheme [HostNames] (base : Url) {s : String} {cs : List Char}
    (hsome : splitScheme? (significant s) = some (base.scheme, cs))
    (hspecial : base.schemeClass.isSpecial = true) :
    base.join s =
      if base.schemeClass = .special ∧
          2 ≤ (cs.takeWhile fun ch => ch == '/' || ch == '\\').length then
        parseAfterSlashes base.scheme (cs.dropWhile fun ch => ch == '/' || ch == '\\')
      else readOn base cs := by
  unfold join parseWith readOn
  unfold schemeClass at hspecial ⊢
  dsimp only
  rw [hsome]
  cases hclass : SchemeClass.of base.scheme with
  | file =>
      have hfile : (some base).filter (·.scheme == "file") = some base := by
        simp [of_eq_file.mp hclass]
      simp only [hclass, hfile]
      rfl
  | special =>
      simp only [hclass, true_and, and_true, ← Nat.not_lt, ite_not]
      rfl
  | plain =>
      rw [hclass] at hspecial
      exact absurd hspecial Bool.false_ne_true

theorem relativePart?_eq_some_iff {scheme : String} {cs rest : List Char} :
    relativePart? scheme cs = some rest ↔ (splitScheme? cs = none ∧ cs = rest) ∨
      (splitScheme? cs = some (scheme, rest) ∧ (SchemeClass.of scheme).isSpecial = true) := by
  unfold relativePart?
  cases splitScheme? cs with
  | none => simp
  | some found =>
      obtain ⟨own, rest'⟩ := found
      dsimp only
      by_cases hown : own = scheme ∧ (SchemeClass.of scheme).isSpecial = true
      · simp [hown]
      · rw [if_neg hown]
        simp only [reduceCtorEq, false_and, false_or, Option.some.injEq, Prod.mk.injEq, false_iff]
        exact fun h => hown ⟨h.1.1, h.2⟩

theorem join_of_relativePart [HostNames] {base : Url} {s : String} {cs : List Char}
    {parts : List String} (hpath : base.path = .segments parts)
    (hrel : relativePart? base.scheme (significant s) = some cs)
    (hhead : cs.head?.any (fun ch => ch == '/' || ch == '\\') = false) :
    base.join s = readOn base cs := by
  have hslashes : cs.takeWhile (fun ch => ch == '/' || ch == '\\') = [] := by
    cases cs with
    | nil => rfl
    | cons ch rest => exact List.takeWhile_cons_of_neg (by simpa using hhead)
  obtain ⟨hnone, rfl⟩ | ⟨hsome, hspecial⟩ := relativePart?_eq_some_iff.mp hrel
  · exact join_of_noScheme hpath hnone
  · rw [join_of_ownScheme base hsome hspecial, hslashes, if_neg fun h => absurd h.2 (by decide)]

theorem join_of_absolute [HostNames] {base : Url} {s : String}
    (hrel : relativePart? base.scheme (significant s) = none) : base.join s = parse s := by
  unfold relativePart? at hrel
  unfold join parse parseWith
  dsimp only
  split at hrel
  · exact absurd hrel (Option.some_ne_none _)
  · rename_i own rest hsome
    have hown : ¬ (own = base.scheme ∧ (SchemeClass.of base.scheme).isSpecial = true) := by
      intro h
      rw [if_pos h] at hrel
      exact Option.some_ne_none _ hrel
    rw [hsome]
    dsimp only
    cases hclass : SchemeClass.of own with
    | file =>
        have hfile : (some base).filter (·.scheme == "file") = none := by
          have hne : base.scheme ≠ "file" := by
            intro hbase
            exact hown ⟨(of_eq_file.mp hclass).trans hbase.symm, by rw [hbase]; rfl⟩
          simp [hne]
        rw [hfile]
        rfl
    | special =>
        dsimp only
        rw [if_neg]
        rintro ⟨-, rfl⟩
        exact hown ⟨rfl, by rw [hclass]; rfl⟩
    | plain => rfl

theorem shorten_folder (c : SchemeClass) (folders : List String) :
    shorten c (folders ++ [""]) = folders := by
  cases folders with
  | nil => cases c <;> rfl
  | cons folder folders =>
      cases folders with
      | nil => rfl
      | cons other folders =>
          exact (List.dropLast_concat : (folder :: other :: folders ++ [""]).dropLast = _)

theorem parseFile_of_relative [HostNames] {base : Url} {parts : List String}
    (hpath : base.path = .segments parts) {ch : Char} (rest : List Char)
    (hslash : (ch == '/' || ch == '\\') = false) :
    parseFile (some base) (ch :: rest) = parseFile.relative (some base)
      (fun ch => ch == '/' || ch == '\\') (some (fileAuthority (.domain ""))) parts
      (ch :: rest) := by
  unfold parseFile
  simp only [Option.map_some, hpath]
  cases rest with
  | nil => rfl
  | cons other rest =>
      simp only [hslash, Bool.false_and]
      rfl

theorem readOn_path [HostNames] {base : Url} {folders : List String} {ch : Char} {rest : List Char}
    (hpath : base.path = .segments (folders ++ [""])) (hend : endsPath ch = false)
    (hslash : (ch == '/' || ch == '\\') = false)
    (hdrive : (base.schemeClass == .file && startsWithDriveLetter (ch :: rest)) = false) :
    readOn base (ch :: rest) =
      .ok (finish base.scheme base.authority folders (ch :: rest)) := by
  obtain ⟨hquery, hfragment⟩ := endsPath_eq_false_iff.mp hend
  by_cases hfile : base.schemeClass = .file
  · rw [hfile] at hdrive
    obtain ⟨part, parts, hparts⟩ := List.exists_cons_of_ne_nil (List.concat_ne_nil "" folders)
    rw [readOn_of_file base hfile, parseFile_of_relative hpath rest hslash, hparts,
      parseFile.relative, if_neg (by simpa using hslash), if_neg (by simpa using hdrive), ← hparts,
      shorten_folder, of_eq_file.mp hfile]
    · exact hfragment
    · exact hquery
  · rw [readOn_of_not_file base hfile, parseRelative, hpath]
    · simp only [hslash, List.dropLast_concat]
      rfl
    · exact hquery
    · exact hfragment

/-- What can be a base: a URL with a host, whose path names a folder. The path of a file begins with
no empty folder. -/
structure IsBase (base : Url) : Prop where
  host : base.hostText?.isSome
  folders : ∃ folders, base.path = .segments (folders ++ [""]) ∧
    (base.scheme = "file" → folders.head? ≠ some "")

/-- Whether a URL is on the host of a base, and its path begins with the base's path. -/
structure Under (base u : Url) : Prop where
  scheme : u.scheme = base.scheme
  host : u.hostText? = base.hostText?
  port : u.port? = base.port?
  path : base.pathText.toList <+: u.pathText.toList

theorem under_of_same {base u : Url} (hscheme : u.scheme = base.scheme)
    (hauthority : u.authority = base.authority)
    (hpath : base.pathText.toList <+: u.pathText.toList) : Under base u where
  scheme := hscheme
  host := by unfold hostText?; rw [hauthority]
  port := by unfold port?; rw [hauthority]
  path := hpath

theorem Path.toText_append (parts more : List String) : (Path.segments (parts ++ more)).toText =
    (Path.segments parts).toText ++ (Path.segments more).toText := by
  simp only [Path.toText, List.map_append, String.join_append]

theorem prefix_of_folder {more : List String} (folders : List String) (hmore : more ≠ []) :
    (Path.segments (folders ++ [""])).toText.toList <+:
      (Path.segments (folders ++ more)).toText.toList := by
  obtain ⟨part, parts, rfl⟩ := List.exists_cons_of_ne_nil hmore
  rw [Path.toText_append, Path.toText_append, String.toList_append, String.toList_append,
    List.prefix_append_right_inj]
  exact ⟨part.toList ++ (Path.segments parts).toText.toList, by simp [Path.toText]⟩

theorem readOn_end [HostNames] (base : Url) {ch : Char} (rest : List Char)
    (hend : endsPath ch = true) :
    ∃ u, readOn base (ch :: rest) = .ok u ∧ u.scheme = base.scheme ∧
      u.authority = base.authority ∧ u.path = base.path := by
  rcases Bool.or_eq_true_iff.mp hend with hquery | hfragment
  · obtain rfl := beq_iff_eq.mp hquery
    refine ⟨{ base with
      query := (readEnd base.schemeClass ('?' :: rest)).1
      fragment := (readEnd base.schemeClass ('?' :: rest)).2 }, ?_, rfl, rfl, rfl⟩
    unfold readOn
    split
    · rename_i hfile
      rw [hfile]
      cases rest <;> rfl
    · rfl
  · obtain rfl := beq_iff_eq.mp hfragment
    exact ⟨_, readOn_hash base rest, rfl, rfl, rfl⟩

/-- A confined text stays under its base. -/
theorem join_under [HostNames] {base : Url} {s : String} (hbase : IsBase base)
    (hconfined : confined base.scheme s = true) : ∃ u, base.join s = .ok u ∧ Under base u := by
  obtain ⟨folders, hpath, hfile⟩ := hbase.folders
  obtain ⟨cs, hrel, hdescends⟩ := (Option.any_eq_true _ _).mp hconfined
  have hjoin := join_of_relativePart hpath hrel
  cases cs with
  | nil =>
      refine ⟨{ base with fragment := none }, ?_, under_of_same rfl rfl (List.prefix_refl _)⟩
      rw [hjoin rfl, readOn]
      split <;> rfl
  | cons ch rest =>
      by_cases hend : endsPath ch = true
      · obtain ⟨u, hread, hscheme, hauthority, hsame⟩ := readOn_end base rest hend
        refine ⟨u, (hjoin ?_).trans hread, under_of_same hscheme hauthority ?_⟩
        · rcases Bool.or_eq_true_iff.mp hend with h | h <;> obtain rfl := beq_iff_eq.mp h <;> rfl
        · simp [pathText, hsame]
      · rw [Bool.not_eq_true] at hend
        simp only [descends, hend, Bool.false_or, Bool.and_eq_true, Bool.not_eq_true'] at hdescends
        obtain ⟨⟨hslash, hdrive⟩, hclimb⟩ := hdescends
        refine ⟨_, (hjoin hslash).trans (readOn_path hpath hend hslash hdrive),
          under_of_same rfl rfl ?_⟩
        obtain ⟨more, hread, hmore⟩ := readSegments_append (SchemeClass.of base.scheme) folders
          hclimb fun hclass => hfile (of_eq_file.mp hclass)
        unfold pathText finish
        simp only [hpath, hread]
        exact prefix_of_folder folders hmore

/-- The base that has this folder and no other. -/
def flatBase (scheme folder : String) : Url where
  scheme := scheme
  authority := some ⟨"", none, .domain "a", none⟩
  path := .segments [folder, ""]
  query := none
  fragment := none

theorem isBase_flatBase (scheme : String) {folder : String} (hfolder : folder ≠ "") :
    IsBase (flatBase scheme folder) where
  host := rfl
  folders := ⟨[folder], rfl, fun _ => by simpa using hfolder⟩

section Leave

variable {scheme x y : String} (hx : isNormalDriveLetter x = false)
  (hy : isNormalDriveLetter y = false)
include hx hy

theorem parseFile_flatBase [HostNames] {ch : Char} {rest : List Char} (hend : endsPath ch = false)
    (hroot : (ch == '/' || ch == '\\') = true ∨ startsWithDriveLetter (ch :: rest) = true) :
    parseFile (some (flatBase scheme x)) (ch :: rest) =
      parseFile (some (flatBase scheme y)) (ch :: rest) := by
  obtain ⟨hquery, hfragment⟩ := endsPath_eq_false_iff.mp hend
  have hrelative : ∀ atRoot, parseFile.relative (some (flatBase scheme x))
      (fun ch => ch == '/' || ch == '\\') atRoot [x, ""] (ch :: rest) =
      parseFile.relative (some (flatBase scheme y))
        (fun ch => ch == '/' || ch == '\\') atRoot [y, ""] (ch :: rest) := by
    intro atRoot
    rw [parseFile.relative, parseFile.relative]
    · simp only [hx, hy]
      rcases hroot with hslash | hdrive
      · rw [if_pos hslash, if_pos hslash]
        rfl
      · simp only [if_pos hdrive]
        rfl
    all_goals assumption
  unfold parseFile
  cases rest with
  | nil => exact hrelative _
  | cons other rest =>
      dsimp only
      split
      · rfl
      · exact hrelative _

theorem readOn_root [HostNames] {ch : Char} {rest : List Char} (hend : endsPath ch = false)
    (hroot : (ch == '/' || ch == '\\') = true ∨
      (SchemeClass.of scheme == .file && startsWithDriveLetter (ch :: rest)) = true) :
    readOn (flatBase scheme x) (ch :: rest) = readOn (flatBase scheme y) (ch :: rest) := by
  by_cases hfile : SchemeClass.of scheme = .file
  · rw [hfile] at hroot
    rw [readOn_of_file (flatBase scheme x) hfile, readOn_of_file (flatBase scheme y) hfile]
    exact parseFile_flatBase hx hy hend hroot
  · obtain ⟨hquery, hfragment⟩ := endsPath_eq_false_iff.mp hend
    have hslash := hroot.resolve_right (by simp [hfile])
    rw [readOn_of_not_file (flatBase scheme x) hfile, readOn_of_not_file (flatBase scheme y) hfile,
      parseRelative, parseRelative, if_pos hslash, if_pos hslash]
    · rfl
    all_goals assumption

theorem readOn_flatBase [HostNames] {cs : List Char} (hleave : descends (.of scheme) cs = false) :
    readOn (flatBase scheme x) cs = readOn (flatBase scheme y) cs := by
  cases cs with
  | nil => exact absurd hleave (Bool.false_ne_true ∘ Eq.symm)
  | cons ch rest =>
      obtain ⟨hend, hleave⟩ := Bool.or_eq_false_iff.mp hleave
      by_cases hroot : (ch == '/' || ch == '\\') = true ∨
          (SchemeClass.of scheme == .file && startsWithDriveLetter (ch :: rest)) = true
      · exact readOn_root hx hy hend hroot
      · obtain ⟨hslash, hdrive⟩ := not_or.mp hroot
        rw [Bool.not_eq_true] at hslash hdrive
        simp only [hslash, hdrive, Bool.not_false, Bool.true_and, Bool.not_eq_false'] at hleave
        have hpath : ∀ folder, readOn (flatBase scheme folder) (ch :: rest) =
            .ok (finish scheme (some ⟨"", none, .domain "a", none⟩) [folder] (ch :: rest)) :=
          fun folder => readOn_path rfl hend hslash hdrive
        rw [hpath, hpath]
        unfold finish
        simp only [readSegments_of_climbs _ hx hy hleave]

/-- A text that may leave a base takes away the base's folder, whichever it is. -/
theorem join_flatBase [HostNames] {s : String} (hleave : confined scheme s = false) :
    (flatBase scheme x).join s = (flatBase scheme y).join s := by
  cases hrel : relativePart? scheme (significant s) with
  | none => exact (join_of_absolute hrel).trans (join_of_absolute hrel).symm
  | some cs =>
      -- Both bases have the same scheme, so that they part the text in the same way.
      unfold confined at hleave
      rw [hrel, Option.any_some] at hleave
      have hread := readOn_flatBase hx hy hleave
      obtain ⟨hnone, rfl⟩ | ⟨hsome, hspecial⟩ := relativePart?_eq_some_iff.mp hrel
      · rw [join_of_noScheme rfl hnone, join_of_noScheme rfl hnone, hread]
      · rw [join_of_ownScheme (flatBase scheme x) hsome hspecial,
          join_of_ownScheme (flatBase scheme y) hsome hspecial, hread]
        rfl

end Leave

/-- The confined texts are those that stay under every base with the scheme. -/
theorem confined_iff [HostNames] {scheme s : String} : confined scheme s = true ↔
    ∀ base, IsBase base → base.scheme = scheme → ∃ u, base.join s = .ok u ∧ Under base u := by
  constructor
  · rintro hconfined base hbase rfl
    exact join_under hbase hconfined
  · intro hunder
    -- Two bases that differ in their folder would share what the text leads to.
    by_contra hleave
    rw [Bool.not_eq_true] at hleave
    obtain ⟨u, hjoin, hu⟩ := hunder (flatBase scheme "a") (isBase_flatBase scheme (by decide)) rfl
    obtain ⟨v, hjoin', hv⟩ := hunder (flatBase scheme "b") (isBase_flatBase scheme (by decide)) rfl
    have hsame : (flatBase scheme "a").join s = (flatBase scheme "b").join s :=
      join_flatBase (by decide) (by decide) hleave
    rw [hjoin, hjoin'] at hsame
    obtain rfl := Except.ok.inj hsame
    have hprefix : "/a/".toList <+: "/b/".toList :=
      List.prefix_of_prefix_length_le hu.path hv.path (by decide)
    exact absurd hprefix (by decide)

example : ["a/../b", "%2E/b", "?x=../..", "https:b", "a/../../b", "/b", "\\b", "team:b"].map
    (confined "https") = [true, true, true, true, false, false, false, false] := by
  decide

end Url

end RepoCatalog
