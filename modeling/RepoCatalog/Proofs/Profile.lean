import RepoCatalog.Proofs.Layers

/-!
# Which profile is reported

Files are chosen by the profile as it is first told, with any blanks around it. The settings report
the profile as all layers tell it, without blanks. The two are the same exactly if the last word on
the profile is blank, or is the chosen profile once blanks around it are dropped.
-/
namespace RepoCatalog.Settings

open EnvFile (Variables Folder)

variable {environment : Variables} {folder : Folder} {s : Settings}

/-- Another profile that the files of the chosen one tell, where the process environment does not
tell any. -/
def retold? (environment : Variables) (folder : Folder) : Option String :=
  match lastOf? environment.entries "PROFILE" with
  | some _ => none
  | none =>
    told [layerOf environment folder s!".env.{chosen environment folder}.local",
      layerOf environment folder s!".env.{chosen environment folder}"] "PROFILE"

/-- The last word on the profile. -/
def lastWord (environment : Variables) (folder : Folder) : String :=
  (retold? environment folder).getD (chosen environment folder)

theorem profileFiles_inj {p q : String} : profileFiles p = profileFiles q ↔ p = q := by
  constructor
  · intro h
    have hhead := (List.cons.inj h).1
    simp only [← String.toList_inj, String.toList_append] at hhead
    exact String.toList_inj.mp (List.append_cancel_left hhead)
  · exact congrArg profileFiles

/-- All layers tell the last word on the profile, unless none of them tells any. -/
theorem told_profile (environment : Variables) (folder : Folder) :
    told (layering environment folder (chosen environment folder)) "PROFILE" =
        some (lastWord environment folder) ∨
      told (layering environment folder (chosen environment folder)) "PROFILE" = none ∧
        lastWord environment folder = "local" ∧ chosen environment folder = "local" := by
  have hlayers : told (layering environment folder (chosen environment folder)) "PROFILE" =
      (lastOf? environment.entries "PROFILE").or
        ((told [layerOf environment folder s!".env.{chosen environment folder}.local",
          layerOf environment folder s!".env.{chosen environment folder}"] "PROFILE").or
        (told [layerOf environment folder ".env.local", layerOf environment folder ".env"]
          "PROFILE")) := by
    rw [← told_append, ← told_cons]
    rfl
  have hchosen : chosen environment folder =
      ((lastOf? environment.entries "PROFILE").or
        (told [layerOf environment folder ".env.local", layerOf environment folder ".env"]
          "PROFILE")).getD "local" := by
    rw [← told_cons]
    rfl
  rw [hlayers, lastWord, retold?]
  cases hprocess : lastOf? environment.entries "PROFILE" with
  | some name =>
      rw [hprocess] at hchosen
      exact .inl (congrArg some hchosen.symm)
  | none =>
      rw [hprocess] at hchosen
      simp only
      generalize told [layerOf environment folder s!".env.{chosen environment folder}.local",
        layerOf environment folder s!".env.{chosen environment folder}"] "PROFILE" = own
      cases own with
      | some name => exact .inl rfl
      | none =>
          cases hcommon : told [layerOf environment folder ".env.local",
            layerOf environment folder ".env"] "PROFILE" with
          | some name =>
              rw [hcommon] at hchosen
              exact .inl (congrArg some hchosen.symm)
          | none =>
              rw [hcommon] at hchosen
              exact .inr ⟨rfl, hchosen, hchosen⟩

theorem chosen_eq_profile_iff (h : load environment folder = .ok s) :
    chosen environment folder = s.profile ↔
      Text.trim (lastWord environment folder) = "" ∨
        Text.trim (lastWord environment folder) = chosen environment folder := by
  obtain ⟨-, hprofile, -, -⟩ := load_ok_iff.mp h
  rw [hprofile, given]
  rcases told_profile environment folder with htold | ⟨htold, hword, hchosen⟩
  · rw [htold, Option.map_some, Option.filter_some]
    by_cases hblank : Text.trim (lastWord environment folder) = ""
    · rw [hblank]
      exact ⟨fun _ => .inl rfl, fun _ => rfl⟩
    · have hkept : (!(Text.trim (lastWord environment folder)).isEmpty) = true := by
        rw [Bool.not_eq_true', ← Bool.not_eq_true, String.isEmpty_iff]
        exact hblank
      rw [if_pos hkept, or_iff_right hblank]
      exact eq_comm
  · rw [htold, hword, hchosen]
    decide +kernel

/-- The files that are merged are those of the reported profile exactly if the last word on the
profile is blank, or is the profile by which files were chosen once blanks are dropped. -/
theorem reported_profile_iff (h : load environment folder = .ok s) :
    (∃ values, (mergedFiles environment folder).foldlM (overlayFile environment folder) ∅ =
        .ok values ∧
      ofValues (overlay values environment.entries) (chosen environment folder) = .ok s) ∧
    (mergedFiles environment folder = commonFiles ++ profileFiles s.profile ↔
      Text.trim (lastWord environment folder) = "" ∨
        Text.trim (lastWord environment folder) = chosen environment folder) := by
  obtain ⟨hread, hprofile, hfollows, -⟩ := load_ok_iff.mp h
  constructor
  · obtain ⟨values, hvalues⟩ := exists_foldlM_overlayFile ∅ hread
    have hget : ∀ key, (overlay values environment.entries).get? key =
        told (layering environment folder (chosen environment folder)) key := by
      intro key
      rw [get?_overlay, (foldlM_overlayFile_ok hvalues).2, Dict.get?_empty, Option.or_none,
        told_layering]
    rw [← text?_of_told hget] at hprofile hfollows
    exact ⟨values, hvalues, ofValues_ok_iff.mpr ⟨hprofile, hfollows⟩⟩
  · rw [← chosen_eq_profile_iff h, mergedFiles, List.append_cancel_left_eq, profileFiles_inj]

/-- Files of one profile, which tell its name once more. -/
def staged : Folder where
  path := "settings"
  files := Dict.ofList [(".env.local", "REPOSYNC_PROFILE=stage\n"),
    (".env.stage", "REPOSYNC_PROFILE=' stage '\nREPOSYNC_LOG_LEVEL=debug\n")]
  folders := []

theorem reported_profile_iff_staged :
    load ∅ staged = .ok { default with profile := "stage", logLevel := "debug" } ∧
      mergedFiles ∅ staged = commonFiles ++ profileFiles "stage" := by
  have h : load ∅ staged = .ok { default with profile := "stage", logLevel := "debug" } := by
    decide +kernel
  exact ⟨h, (reported_profile_iff h).2.mpr (by decide +kernel)⟩

/-- A process environment that tells the profile with a blank in front. -/
def indented : Variables :=
  Dict.ofList [("REPOSYNC_PROFILE", " stage")]

/-- A blank in front of the profile is part of the names of the files, but is not reported. -/
theorem indented_files_passed_over :
    load indented staged = .ok { default with profile := "stage" } ∧
      mergedFiles indented staged = [".env", ".env.local", ".env. stage", ".env. stage.local"] ∧
      mergedFiles indented staged ≠ commonFiles ++ profileFiles "stage" := by
  decide +kernel

end RepoCatalog.Settings
