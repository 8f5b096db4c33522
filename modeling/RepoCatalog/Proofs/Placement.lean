import RepoCatalog.Proofs.Confined
import RepoCatalog.Proofs.Results
import RepoCatalog.Source.Static

/-!
# Where static repositories are

The base of a static source names a folder on a host. A listed repository has the base and its
trimmed path for identity, and is cloned from where the path leads from the base. That place is
under the base if the path is confined; only the identity follows from the path alone.
-/
namespace RepoCatalog

namespace Url

/-- Whether a URL has a path of segments, and no empty one before others in the path of a file. -/
def Rooted (u : Url) : Prop :=
  ∃ parts, u.path = .segments parts ∧
    (u.scheme = "file" → parts = [""] ∨ parts.head? ≠ some "")

theorem readSegments_file (parts : List String) (cs : List Char) :
    readSegments .file parts cs = [""] ∨ (readSegments .file parts cs).head? ≠ some "" := by
  unfold readSegments
  dsimp only
  rw [if_pos rfl]
  split
  · exact .inl rfl
  · rename_i hne
    refine .inr fun hhead => ?_
    have := List.head?_dropWhile_not String.isEmpty (walkAll .file parts cs)
    rw [hhead] at this
    exact absurd this (by decide)

theorem rooted_finish (scheme : String) (a : Option Authority) (parts : List String)
    (cs : List Char) : Rooted (finish scheme a parts cs) := by
  refine ⟨_, rfl, fun hfile => ?_⟩
  obtain rfl : scheme = "file" := hfile
  exact readSegments_file _ _

theorem rooted_finishAuthority (scheme : String) (a : Authority) (cs : List Char) :
    Rooted (finishAuthority scheme a cs) := by
  unfold finishAuthority
  split
  · exact ⟨_, rfl, fun hfile => .inl (by rw [of_eq_file.mpr hfile]; rfl)⟩
  · dsimp only
    split
    · exact rooted_finish _ _ _ _
    · split
      · exact ⟨_, rfl, fun _ => .inr (by simp)⟩
      · exact rooted_finish _ _ _ _

theorem rooted_parseAfterSlashes [HostNames] {scheme : String} {cs : List Char} {u : Url}
    (h : parseAfterSlashes scheme cs = .ok u) : Rooted u := by
  obtain ⟨⟨a, rest⟩, -, h⟩ := Except.bind_ok_iff.mp h
  cases h
  exact rooted_finishAuthority _ _ _

theorem rooted_parsePlain [HostNames] {scheme : String} {cs : List Char} {u : Url}
    (h : parsePlain scheme cs = .ok u) (hhost : u.hostText?.isSome) : Rooted u := by
  unfold parsePlain at h
  split at h
  · exact rooted_parseAfterSlashes h
  · cases h
    exact rooted_finish _ _ _ _
  · cases h
    exact absurd hhost Bool.false_ne_true

theorem rooted_withoutHostForDrive {u : Url} (h : Rooted u) :
    Rooted (parseFile.withoutHostForDrive u) := by
  unfold parseFile.withoutHostForDrive
  split
  · split <;> exact h
  · exact h

theorem rooted_relative {isSlash : Char → Bool} {atRoot : Option Authority} {parts : List String}
    {cs : List Char} {u : Url} (h : parseFile.relative none isSlash atRoot parts cs = .ok u) :
    Rooted u := by
  cases cs with
  | nil =>
      cases h
      exact rooted_finish _ _ _ _
  | cons ch rest =>
      dsimp only [parseFile.relative] at h
      split at h <;> cases h <;> exact rooted_finish _ _ _ _

theorem rooted_parseFile [HostNames] {cs : List Char} {u : Url} (h : parseFile none cs = .ok u) :
    Rooted u := by
  unfold parseFile at h
  dsimp only at h
  split at h
  · split at h
    · split at h
      · cases h
        exact rooted_finish _ _ _ _
      · obtain ⟨host, -, h⟩ := Except.bind_ok_iff.mp h
        split at h
        · cases h
          exact rooted_finish _ _ _ _
        · cases h
          exact rooted_withoutHostForDrive (rooted_finishAuthority _ _ _)
    · exact rooted_relative h
  · exact rooted_relative h

theorem rooted_parse [HostNames] {s : String} {u : Url} (h : parse s = .ok u)
    (hhost : u.hostText?.isSome) : Rooted u := by
  unfold parse parseWith at h
  dsimp only at h
  split at h
  · split at h
    · exact rooted_parseFile h
    · exact rooted_parsePlain h hhost
    · exact rooted_parseAfterSlashes h
  · cases h

theorem isBase_asFolder {u : Url} (hroot : Rooted u) (hhost : u.hostText?.isSome) :
    IsBase u.asFolder := by
  obtain ⟨parts, hpath, hfile⟩ := hroot
  unfold asFolder
  rw [hpath]
  dsimp only
  split
  · rename_i hlast
    obtain ⟨folders, rfl⟩ := List.getLast?_eq_some_iff.mp hlast
    refine ⟨hhost, folders, hpath, fun hscheme => ?_⟩
    cases folders with
    | nil => exact Option.some_ne_none "" ∘ Eq.symm
    | cons folder folders => exact (hfile hscheme).resolve_left (by simp)
  · rename_i hlast
    refine ⟨hhost, parts, rfl, fun hscheme => (hfile hscheme).resolve_left ?_⟩
    rintro rfl
    exact hlast rfl

end Url

deriving instance DecidableEq for StaticSource

namespace StaticSource

open Url (IsBase Under confined)

variable {svc : Service} {source : StaticSource} {path : String} {r : Repo}

theorem ofService_ok [Url.HostNames] (h : ofService svc = .ok source) :
    source.urn = svc.urn ∧ IsBase source.base := by
  obtain ⟨config, -, h⟩ := Except.bind_ok_iff.mp h
  obtain ⟨base, hparse, h⟩ := Except.bind_ok_iff.mp h
  have hparse := Except.mapError_ok_iff.mp hparse
  by_cases hhost : base.hostText?.isNone = true
  · rw [if_pos hhost] at h
    cases h
  · rw [if_neg hhost] at h
    cases h
    rw [Bool.not_eq_true, Option.isNone_eq_false_iff] at hhost
    exact ⟨rfl, Url.isBase_asFolder (Url.rooted_parse hparse hhost) hhost⟩

/-- A path gives a repository if it is not empty and leads somewhere from the base. -/
theorem repoAt_ok_iff [Url.HostNames] : source.repoAt path = .ok r ↔
    trimSlashes path ≠ "" ∧ ∃ u, source.base.join (trimSlashes path) = .ok u ∧
      r = { Repo.blank with
        name := source.namePrefix ++ "/" ++ trimSlashes path
        uri := source.namePrefix ++ "/" ++ trimSlashes path
        spec := ⟨Kind.other.serviceType, source.base.text, trimSlashes path⟩
        claims := Dict.ofList [(source.urn, ⟨source.urn, u.text⟩)] } := by
  unfold repoAt
  by_cases hempty : (trimSlashes path).isEmpty = true
  · dsimp only
    rw [if_pos hempty]
    constructor
    · intro h
      cases h
    · rintro ⟨hne, -⟩
      exact absurd (String.isEmpty_iff.mp hempty) hne
  · dsimp only
    rw [if_neg hempty]
    constructor
    · intro h
      obtain ⟨u, hjoin, h⟩ := Except.bind_ok_iff.mp h
      cases h
      exact ⟨mt String.isEmpty_iff.mpr hempty, u, Except.mapError_ok_iff.mp hjoin, rfl⟩
    · rintro ⟨-, u, hjoin, rfl⟩
      exact Except.bind_ok_iff.mpr ⟨u, Except.mapError_ok_iff.mpr hjoin, rfl⟩

theorem spec_eq_iff_name_eq [Url.HostNames] {path' : String} {r' : Repo}
    (hr : source.repoAt path = .ok r) (hr' : source.repoAt path' = .ok r') : r.spec = r'.spec ↔ r.name = r'.name := by
  obtain ⟨-, u, -, rfl⟩ := repoAt_ok_iff.mp hr
  obtain ⟨-, u', -, rfl⟩ := repoAt_ok_iff.mp hr'
  simp [String.append_right_inj]

/-- A repository is known by its base and its path, one to one with its name, and is claimed by its
service alone. It is cloned from under the base if the path is confined. A path that is not confined
leads away from some base with the scheme. -/
theorem repoAt_placed [Url.HostNames] (hsource : ofService svc = .ok source)
    (hr : source.repoAt path = .ok r) :
    (∃ u, source.base.join (trimSlashes path) = .ok u ∧
      r.claims.entries = [(svc.urn, ⟨svc.urn, u.text⟩)] ∧
      (confined source.base.scheme (trimSlashes path) = true → Under source.base u)) ∧
    r.spec = ⟨"other", source.base.text, trimSlashes path⟩ ∧
    (∀ path' r', source.repoAt path' = .ok r' → (r.spec = r'.spec ↔ r.name = r'.name)) ∧
    (confined source.base.scheme (trimSlashes path) = true ↔
      ∀ base, IsBase base → base.scheme = source.base.scheme →
        ∃ u, base.join (trimSlashes path) = .ok u ∧ Under base u) := by
  obtain ⟨hurn, hbase⟩ := ofService_ok hsource
  have hnames := fun path' r' (hr' : source.repoAt path' = .ok r') => spec_eq_iff_name_eq hr hr'
  obtain ⟨-, u, hjoin, rfl⟩ := repoAt_ok_iff.mp hr
  refine ⟨⟨u, hjoin, ?_, fun hconfined => ?_⟩, rfl, hnames, Url.confined_iff⟩
  · rw [hurn]
    rfl
  · obtain ⟨v, hjoin', hv⟩ := Url.join_under hbase hconfined
    rw [hjoin] at hjoin'
    cases hjoin'
    exact hv

/-- A service whose repositories are below one folder of a host. -/
def scmService : Service :=
  { Service.fresh .other "static" with
    id := 3
    config := .object [("url", .string "https://git.example.com/scm")] }

def scmSource : StaticSource where
  urn := "extsvc:other:3"
  base := ⟨"https", some ⟨"", none, .domain "git.example.com", none⟩, .segments ["scm", ""], none,
    none⟩
  paths := []

theorem ofService_scmService : ofService scmService = .ok scmSource := by
  decide +kernel

theorem repoAt_placed_dots : ofService scmService = .ok scmSource ∧
    confined "https" "team/x/../lib" = true ∧
    ∃ r u, scmSource.repoAt "/team/x/../lib/" = .ok r ∧
      r.claims.entries = [("extsvc:other:3", ⟨"extsvc:other:3", u.text⟩)] ∧
      u.text = "https://git.example.com/scm/team/lib" ∧ Under scmSource.base u := by
  have htrim : trimSlashes "/team/x/../lib/" = "team/x/../lib" := by decide
  have hconfined : confined "https" "team/x/../lib" = true := by decide
  have htext : (scmSource.base.join "team/x/../lib").map Url.text =
      .ok "https://git.example.com/scm/team/lib" := by decide +kernel
  obtain ⟨r, hr⟩ : ∃ r, scmSource.repoAt "/team/x/../lib/" = .ok r := ⟨_, rfl⟩
  obtain ⟨⟨u, hjoin, hclaims, hunder⟩, -⟩ := repoAt_placed ofService_scmService hr
  rw [htrim] at hjoin hunder
  rw [hjoin] at htext
  exact ⟨ofService_scmService, hconfined, r, u, hr, hclaims, Except.ok.inj htext, hunder hconfined⟩

/-- What stands before a colon is read as a scheme, and the repository is nowhere on the host. -/
theorem colon_leaves_host : ∃ r u, scmSource.repoAt "team:app" = .ok r ∧
    scmSource.base.join "team:app" = .ok u ∧
    r.spec = ⟨"other", "https://git.example.com/scm/", "team:app"⟩ ∧
    r.claims.entries = [("extsvc:other:3", ⟨"extsvc:other:3", "team:app"⟩)] ∧
    ¬ Under scmSource.base u := by
  refine ⟨_, ⟨"team", none, .text "app", none, none⟩, rfl, ?_, ?_, ?_, ?_⟩
  · decide
  · decide
  · decide +kernel
  · exact fun h => absurd h.scheme (by decide)

end StaticSource

end RepoCatalog
