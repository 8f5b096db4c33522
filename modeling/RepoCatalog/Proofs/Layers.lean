import Mathlib.Data.List.Induction
import RepoCatalog.Proofs.Dict
import RepoCatalog.Proofs.Results
import RepoCatalog.Settings.Loader

/-!
# Which layer tells a setting

Every setting is told by the highest layer that defines it: the process environment, or else one of
four files, two of which are named after a profile that is told by the other layers. What a lower
layer says to it does not matter, even if the highest one leaves the value blank, which means the
standard value. Layers are taken as they are read: a name inside of a value is resolved by then.
-/
namespace RepoCatalog

open EnvFile (Variables Folder)

namespace Settings

/-- Variables in the order in which they are given. -/
abbrev Layer := List (String × String)

def variableOf (key : String) : String :=
  variableStart ++ key

def lastOf? (layer : Layer) (key : String) : Option String :=
  (layer.reverse.find? fun v => v.1 == variableOf key).map (·.2)

/-- The value of a setting in the first of some layers that defines it. -/
def told (layers : List Layer) (key : String) : Option String :=
  layers.findSome? (lastOf? · key)

/-- The text of a setting without blanks around it. A blank value says nothing. -/
def given (layers : List Layer) (key : String) : Option String :=
  ((told layers key).map Text.trim).filter fun s => !s.isEmpty

/-- The variables of a file, if it can be read. A file that does not exist has none. -/
def fileEntries (environment : Variables) (folder : Folder) (name : String) :
    Except EnvFile.Error Layer := do
  match ← folder.read? name with
  | some text => EnvFile.read environment text
  | none => return []

def Readable (environment : Variables) (folder : Folder) (name : String) : Prop :=
  ∃ layer, fileEntries environment folder name = .ok layer

instance (environment : Variables) (folder : Folder) (name : String) :
    Decidable (Readable environment folder name) :=
  match h : fileEntries environment folder name with
  | .ok layer => isTrue ⟨layer, h⟩
  | .error _ => isFalse <| by
      rintro ⟨layer, hread⟩
      cases h.symm.trans hread

def layerOf (environment : Variables) (folder : Folder) (name : String) : Layer :=
  (fileEntries environment folder name).toOption.getD []

/-- The profile by which files are chosen, with any blanks around it. -/
def chosen (environment : Variables) (folder : Folder) : String :=
  (told [environment.entries, layerOf environment folder ".env.local",
    layerOf environment folder ".env"] "PROFILE").getD "local"

/-- All layers of a profile, the highest first. -/
def layering (environment : Variables) (folder : Folder) (profile : String) : List Layer :=
  [environment.entries, layerOf environment folder s!".env.{profile}.local",
    layerOf environment folder s!".env.{profile}", layerOf environment folder ".env.local",
    layerOf environment folder ".env"]

theorem variableOf_inj {j k : String} : variableOf j = variableOf k ↔ j = k := by
  unfold variableOf
  rw [← String.toList_inj, ← String.toList_inj, String.toList_append, String.toList_append,
    List.append_cancel_left_eq]

theorem settingOf?_eq_some_iff {name key : String} :
    settingOf? name = some key ↔ name = variableOf key := by
  unfold settingOf?
  rw [Option.ite_none_right_eq_some, String.startsWith_string_iff, Option.some.injEq]
  constructor
  · rintro ⟨⟨rest, hrest⟩, hkey⟩
    rw [← hrest, List.drop_left' String.length_toList] at hkey
    rw [← hkey, ← String.toList_inj, variableOf, String.toList_append, String.toList_ofList, hrest]
  · rintro rfl
    unfold variableOf
    rw [String.toList_append, List.drop_left' String.length_toList, String.ofList_toList]
    exact ⟨List.prefix_append _ _, rfl⟩

theorem lastOf?_concat (layer : Layer) (v : String × String) (key : String) :
    lastOf? (layer ++ [v]) key =
      if v.1 = variableOf key then some v.2 else lastOf? layer key := by
  unfold lastOf?
  rw [List.reverse_concat, List.find?_cons]
  split
  · rename_i h
    rw [if_pos (beq_iff_eq.mp h)]
    rfl
  · rename_i h
    rw [if_neg (beq_eq_false_iff_ne.mp h)]

theorem mem_of_lastOf? {layer : Layer} {key value : String} (h : lastOf? layer key = some value) :
    (variableOf key, value) ∈ layer := by
  obtain ⟨⟨name, value⟩, hfind, rfl⟩ := Option.map_eq_some_iff.mp h
  have hname : name = variableOf key :=
    beq_iff_eq.mp (List.find?_some (p := fun v : String × String => v.1 == variableOf key) hfind)
  exact hname ▸ List.mem_reverse.mp (List.mem_of_find?_eq_some hfind)

theorem lastOf?_eq_none_iff {layer : Layer} {key : String} :
    lastOf? layer key = none ↔ ∀ value, (variableOf key, value) ∉ layer := by
  unfold lastOf?
  rw [Option.map_eq_none_iff, List.find?_eq_none]
  constructor
  · intro h value hmem
    exact h _ (List.mem_reverse.mpr hmem) (beq_self_eq_true _)
  · rintro h ⟨name, value⟩ hmem hname
    exact h value (beq_iff_eq.mp hname ▸ List.mem_reverse.mp hmem)

theorem lastOf?_entries (d : Variables) (key : String) :
    lastOf? d.entries key = d.get? (variableOf key) := by
  cases hlast : lastOf? d.entries key with
  | some value => exact (Dict.get?_eq_some_iff.mpr (mem_of_lastOf? hlast)).symm
  | none =>
      cases hget : d.get? (variableOf key) with
      | none => rfl
      | some value =>
          exact absurd (Dict.get?_eq_some_iff.mp hget) (lastOf?_eq_none_iff.mp hlast value)

theorem get?_overlay (values : Variables) (layer : Layer) (key : String) :
    (overlay values layer).get? key = (lastOf? layer key).or (values.get? key) := by
  induction layer using List.reverseRecOn with
  | nil => rfl
  | append_singleton layer v ih =>
    have hstep : overlay values (layer ++ [v]) =
        match settingOf? v.1 with
        | some key => (overlay values layer).insert key v.2
        | none => overlay values layer := by
      unfold overlay
      rw [List.foldl_append]
      rfl
    rw [hstep, lastOf?_concat]
    cases hset : settingOf? v.1 with
    | none =>
        have hname : ¬ v.1 = variableOf key := by
          intro h
          rw [settingOf?_eq_some_iff.mpr h] at hset
          cases hset
        rw [if_neg hname]
        exact ih
    | some j =>
        simp only [settingOf?_eq_some_iff.mp hset, variableOf_inj, Dict.get?_insert,
          eq_comm (a := key)]
        split
        · rfl
        · exact ih

theorem told_cons (layer : Layer) (layers : List Layer) (key : String) :
    told (layer :: layers) key = (lastOf? layer key).or (told layers key) := by
  unfold told
  rw [List.findSome?_cons]
  cases lastOf? layer key <;> rfl

theorem told_append (layers layers' : List Layer) (key : String) :
    told (layers ++ layers') key = (told layers key).or (told layers' key) :=
  List.findSome?_append

section Files

variable {environment : Variables} {folder : Folder}

theorem overlayFile_ok_iff {values values' : Variables} {name : String} :
    overlayFile environment folder values name = .ok values' ↔
      Readable environment folder name ∧
        values' = overlay values (layerOf environment folder name) := by
  have hopen : overlayFile environment folder values name =
      match fileEntries environment folder name with
      | .ok layer => .ok (overlay values layer)
      | .error e => .error (.unreadableFile (folder.pathOf name) e) := rfl
  rw [hopen, Readable, layerOf]
  cases fileEntries environment folder name with
  | error e =>
      constructor
      · intro h
        cases h
      · rintro ⟨⟨layer, h⟩, -⟩
        cases h
  | ok layer =>
      constructor
      · intro h
        cases h
        exact ⟨⟨layer, rfl⟩, rfl⟩
      · rintro ⟨-, rfl⟩
        rfl

theorem foldlM_overlayFile_ok {names : List String} {values values' : Variables}
    (h : names.foldlM (overlayFile environment folder) values = .ok values') :
    (∀ name ∈ names, Readable environment folder name) ∧
      ∀ key, values'.get? key =
        (told (names.reverse.map (layerOf environment folder)) key).or (values.get? key) := by
  induction names using List.reverseRecOn generalizing values' with
  | nil =>
    cases h
    exact ⟨by simp, fun key => rfl⟩
  | append_singleton names name ih =>
    rw [List.foldlM_append, Except.bind_ok_iff] at h
    obtain ⟨between, hbefore, hlast⟩ := h
    rw [List.foldlM_cons, Except.bind_ok_iff] at hlast
    obtain ⟨after, hfile, hend⟩ := hlast
    cases hend
    obtain ⟨hread, hget⟩ := ih hbefore
    obtain ⟨hname, rfl⟩ := overlayFile_ok_iff.mp hfile
    refine ⟨?_, fun key => ?_⟩
    · intro other hother
      rcases List.mem_append.mp hother with hother | hother
      · exact hread other hother
      · exact List.mem_singleton.mp hother ▸ hname
    · rw [get?_overlay, hget, List.reverse_concat, List.map_cons, told_cons, Option.or_assoc]

theorem exists_foldlM_overlayFile {names : List String} (values : Variables)
    (h : ∀ name ∈ names, Readable environment folder name) :
    ∃ values', names.foldlM (overlayFile environment folder) values = .ok values' := by
  induction names generalizing values with
  | nil => exact ⟨values, rfl⟩
  | cons name names ih =>
      have hname : overlayFile environment folder values name = .ok (overlay values _) :=
        overlayFile_ok_iff.mpr ⟨h name List.mem_cons_self, rfl⟩
      obtain ⟨values', hrest⟩ := ih (overlay values (layerOf environment folder name))
        fun other hother => h other (List.mem_cons_of_mem name hother)
      exact ⟨values', List.foldlM_cons.trans (Except.bind_ok_iff.mpr ⟨_, hname, hrest⟩)⟩

end Files

/-- The value of a setting is what its text means, and the standard one if there is no text. -/
def Means {α : Type} (read? : String → Option α) (standard : α) (text : Option String) (a : α) :
    Prop :=
  match text with
  | none => a = standard
  | some text => read? text = some a

/-- The truth that a word stands for, in any case. -/
def truthOf? (text : String) : Option Bool :=
  if ["1", "true", "yes", "on"].contains (Text.Ascii.lower text) then some true
  else if ["0", "false", "no", "off"].contains (Text.Ascii.lower text) then some false
  else none

section Values

variable {values : Variables}

theorem number_ok_iff {most standard n : Nat} {key : String} :
    number values most key standard = .ok n ↔
      Means (Text.Decimal.unsigned? most) standard (text? values key) n := by
  unfold number Means
  cases text? values key with
  | none => exact ⟨fun h => (Except.ok.inj h).symm, fun h => congrArg Except.ok h.symm⟩
  | some text =>
      simp only
      cases Text.Decimal.unsigned? most text with
      | none => exact ⟨nofun, nofun⟩
      | some m => rw [Except.ok.injEq, Option.some.injEq]

theorem truth_ok_iff {standard b : Bool} {key : String} :
    truth values key standard = .ok b ↔ Means truthOf? standard (text? values key) b := by
  unfold truth Means truthOf?
  cases text? values key with
  | none => exact ⟨fun h => (Except.ok.inj h).symm, fun h => congrArg Except.ok h.symm⟩
  | some text =>
      simp only
      split
      · rw [Except.ok.injEq, Option.some.injEq]
      · split
        · rw [Except.ok.injEq, Option.some.injEq]
        · exact ⟨nofun, nofun⟩

theorem userMode_ok_iff {mode : UserMode} :
    userMode values = .ok mode ↔
      Means UserMode.ofText? SyncSettings.default.userMode
        (text? values "EXTERNAL_SERVICE_USER_MODE") mode := by
  unfold userMode Means
  cases text? values "EXTERNAL_SERVICE_USER_MODE" with
  | none => exact ⟨fun h => (Except.ok.inj h).symm, fun h => congrArg Except.ok h.symm⟩
  | some text =>
      simp only
      cases UserMode.ofText? text with
      | none => exact ⟨nofun, nofun⟩
      | some m => rw [Except.ok.injEq, Option.some.injEq]

theorem means_some_iff {standard s : String} {text : Option String} :
    Means some standard text s ↔ s = text.getD standard := by
  cases text with
  | none => exact Iff.rfl
  | some text => exact ⟨fun h => (Option.some.inj h).symm, fun h => congrArg some h.symm⟩

theorem means_comp_iff {α : Type} {read? : String → Option α} {f : String → String} {standard a : α}
    {text : Option String} :
    Means read? standard (text.map f) a ↔ Means (read? ∘ f) standard text a := by
  cases text <;> exact Iff.rfl

end Values

end Settings

/-- Settings of passes are what their texts mean. -/
structure SyncSettings.Follows (text : String → Option String) (s : SyncSettings) : Prop where
  userReposMaxPerUser : Settings.Means (Text.Decimal.unsigned? Settings.most64)
    default.userReposMaxPerUser (text "USER_REPOS_MAX_PER_USER") s.userReposMaxPerUser
  userReposMaxPerSite : Settings.Means (Text.Decimal.unsigned? Settings.most64)
    default.userReposMaxPerSite (text "USER_REPOS_MAX_PER_SITE") s.userReposMaxPerSite
  userMode : Settings.Means UserMode.ofText? default.userMode (text "EXTERNAL_SERVICE_USER_MODE")
    s.userMode
  disableAutoSyncs : Settings.Means Settings.truthOf? default.disableAutoSyncs
    (text "DISABLE_AUTO_CODE_HOST_SYNCS") s.disableAutoSyncs
  streamingSync : Settings.Means Settings.truthOf? default.streamingSync (text "STREAMING_SYNC")
    s.streamingSync
  streamingInsert : Settings.Means Settings.truthOf? default.streamingInsert
    (text "STREAMING_INSERT") s.streamingInsert
  cloudMode : Settings.Means Settings.truthOf? default.cloudMode (text "CLOUD_MODE") s.cloudMode
  minSyncInterval : Settings.Means (Text.Decimal.unsigned? Settings.most64)
    default.minSyncInterval (text "MIN_SYNC_INTERVAL_SECONDS") s.minSyncInterval
  enqueueInterval : Settings.Means (Text.Decimal.unsigned? Settings.most64)
    default.enqueueInterval (text "ENQUEUE_INTERVAL_SECONDS") s.enqueueInterval
  channelCapacity : Settings.Means (Text.Decimal.unsigned? Settings.most64)
    default.channelCapacity (text "SOURCE_CHANNEL_CAPACITY") s.channelCapacity

/-- Settings of workers are what their texts mean. -/
structure WorkerSettings.Follows (text : String → Option String) (w : WorkerSettings) : Prop where
  concurrency : Settings.Means (Text.Decimal.unsigned? Settings.most64) default.concurrency
    (text "CONCURRENT_EXTERNAL_SERVICE_SYNCERS") w.concurrency
  dequeueInterval : Settings.Means (Text.Decimal.unsigned? Settings.most64)
    default.dequeueInterval (text "DEQUEUE_INTERVAL_SECONDS") w.dequeueInterval
  heartbeatInterval : Settings.Means (Text.Decimal.unsigned? Settings.most64)
    default.heartbeatInterval (text "HEARTBEAT_INTERVAL_SECONDS") w.heartbeatInterval
  stalledMaxAge : Settings.Means (Text.Decimal.unsigned? Settings.most64)
    default.stalledMaxAge (text "STALLED_MAX_AGE_SECONDS") w.stalledMaxAge
  maxNumResets : Settings.Means (Text.Decimal.unsigned? Settings.most32)
    default.maxNumResets (text "MAX_NUM_RESETS") w.maxNumResets
  maxNumRetries : Settings.Means (Text.Decimal.unsigned? Settings.most32)
    default.maxNumRetries (text "MAX_NUM_RETRIES") w.maxNumRetries
  resetterInterval : Settings.Means (Text.Decimal.unsigned? Settings.most64)
    default.resetterInterval (text "RESETTER_INTERVAL_SECONDS") w.resetterInterval
  cleanupOldJobs : Settings.Means Settings.truthOf? default.cleanupOldJobs
    (text "CLEANUP_OLD_JOBS") w.cleanupOldJobs
  cleanupInterval : Settings.Means (Text.Decimal.unsigned? Settings.most64)
    default.cleanupInterval (text "CLEANUP_INTERVAL_SECONDS") w.cleanupInterval
  jobRetention : Settings.Means (Text.Decimal.unsigned? Settings.most64)
    default.jobRetention (text "JOB_RETENTION_SECONDS") w.jobRetention

namespace Settings

/-- All settings but the profile are what their texts mean. -/
structure Follows (text : String → Option String) (s : Settings) : Prop where
  logLevel : Means some default.logLevel (text "LOG_LEVEL") s.logLevel
  logFormat : Means (some ∘ Text.Ascii.lower) default.logFormat (text "LOG_FORMAT") s.logFormat
  databaseUrl : Means some default.databaseUrl (text "DATABASE_URL") s.databaseUrl
  dbMaxConnections : Means (Text.Decimal.unsigned? most32) default.dbMaxConnections
    (text "DB_MAX_CONNECTIONS") s.dbMaxConnections
  dbAcquireTimeoutMs : Means (Text.Decimal.unsigned? most64) default.dbAcquireTimeoutMs
    (text "DB_ACQUIRE_TIMEOUT_MS") s.dbAcquireTimeoutMs
  sync : s.sync.Follows text
  worker : s.worker.Follows text

theorem syncOf_ok_iff {values : Variables} {s : SyncSettings} :
    syncOf values = .ok s ↔ s.Follows (text? values) := by
  unfold syncOf
  simp only [Except.bind_ok_iff, number_ok_iff, truth_ok_iff, userMode_ok_iff]
  constructor
  · rintro ⟨_, h₁, _, h₂, _, h₃, _, h₄, _, h₅, _, h₆, _, h₇, _, h₈, _, h₉, _, h₁₀, h⟩
    cases h
    exact ⟨h₁, h₂, h₃, h₄, h₅, h₆, h₇, h₈, h₉, h₁₀⟩
  · rintro ⟨h₁, h₂, h₃, h₄, h₅, h₆, h₇, h₈, h₉, h₁₀⟩
    exact ⟨_, h₁, _, h₂, _, h₃, _, h₄, _, h₅, _, h₆, _, h₇, _, h₈, _, h₉, _, h₁₀, rfl⟩

theorem workerOf_ok_iff {values : Variables} {w : WorkerSettings} :
    workerOf values = .ok w ↔ w.Follows (text? values) := by
  unfold workerOf
  simp only [Except.bind_ok_iff, number_ok_iff, truth_ok_iff]
  constructor
  · rintro ⟨_, h₁, _, h₂, _, h₃, _, h₄, _, h₅, _, h₆, _, h₇, _, h₈, _, h₉, _, h₁₀, h⟩
    cases h
    exact ⟨h₁, h₂, h₃, h₄, h₅, h₆, h₇, h₈, h₉, h₁₀⟩
  · rintro ⟨h₁, h₂, h₃, h₄, h₅, h₆, h₇, h₈, h₉, h₁₀⟩
    exact ⟨_, h₁, _, h₂, _, h₃, _, h₄, _, h₅, _, h₆, _, h₇, _, h₈, _, h₉, _, h₁₀, rfl⟩

theorem ofValues_ok_iff {values : Variables} {profile : String} {s : Settings} :
    ofValues values profile = .ok s ↔
      s.profile = (text? values "PROFILE").getD profile ∧ s.Follows (text? values) := by
  unfold ofValues
  simp only [Except.bind_ok_iff, number_ok_iff, syncOf_ok_iff, workerOf_ok_iff]
  constructor
  · rintro ⟨_, h₁, _, h₂, _, h₃, _, h₄, h⟩
    cases h
    exact ⟨rfl, means_some_iff.mpr rfl, means_comp_iff.mp (means_some_iff.mpr rfl),
      means_some_iff.mpr rfl, h₁, h₂, h₃, h₄⟩
  · rintro ⟨hprofile, h⟩
    refine ⟨_, h.dbMaxConnections, _, h.dbAcquireTimeoutMs, _, h.sync, _, h.worker, ?_⟩
    rw [← hprofile, ← means_some_iff.mp h.logLevel, ← means_some_iff.mp h.databaseUrl,
      ← means_some_iff.mp (means_comp_iff.mpr h.logFormat)]
    rfl

/-- The files whose variables are merged, the lowest layer first. -/
def mergedFiles (environment : Variables) (folder : Folder) : List String :=
  commonFiles ++ profileFiles (chosen environment folder)

/-- In two stacks of layers, highest first, a setting has the same values down to the first layer
that defines it. -/
def AgreeWhereSeen (key : String) : List Layer → List Layer → Prop
  | [], [] => True
  | layer :: layers, layer' :: layers' =>
    lastOf? layer key = lastOf? layer' key ∧
      (lastOf? layer key = none → AgreeWhereSeen key layers layers')
  | _, _ => False

theorem told_of_agreeWhereSeen {key : String} {ls ls' : List Layer}
    (h : AgreeWhereSeen key ls ls') : told ls key = told ls' key := by
  induction ls generalizing ls' with
  | nil =>
      cases ls' with
      | nil => rfl
      | cons layer' ls' => exact h.elim
  | cons layer ls ih =>
      cases ls' with
      | nil => exact h.elim
      | cons layer' ls' =>
          rw [told_cons, told_cons, ← h.1]
          cases hlast : lastOf? layer key with
          | none => exact ih (h.2 hlast)
          | some value => rfl

section Load

variable {environment environment' : Variables} {folder folder' : Folder} {s : Settings}

theorem told_process (key : String) :
    environment.get? (variableStart ++ key) = lastOf? environment.entries key :=
  (lastOf?_entries environment key).symm

theorem text?_of_told {values : Variables} {ls : List Layer}
    (h : ∀ key, values.get? key = told ls key) : text? values = given ls := by
  funext key
  rw [text?, given, h]

theorem chosen_of_common {values : Variables}
    (h : ∀ key, values.get? key = told (commonFiles.reverse.map (layerOf environment folder)) key) :
    (environment.get? (variableStart ++ "PROFILE") <|> values.get? "PROFILE").getD default.profile =
      chosen environment folder := by
  rw [Option.orElse_eq_orElse, Option.orElse_eq_or, chosen, told_cons, told_process, h]
  rfl

theorem told_layering (key : String) :
    told (layering environment folder (chosen environment folder)) key =
      (lastOf? environment.entries key).or
        (told ((mergedFiles environment folder).reverse.map (layerOf environment folder)) key) :=
  told_cons _ _ _

theorem layers_ok {values : Variables} {profile : String}
    (h : layers environment folder = .ok (values, profile)) :
    profile = chosen environment folder ∧
      (∀ name ∈ mergedFiles environment folder, Readable environment folder name) ∧
      ∀ key, values.get? key = told (layering environment folder profile) key := by
  unfold layers at h
  obtain ⟨common, hcommon, h⟩ := Except.bind_ok_iff.mp h
  obtain ⟨files, hfiles, h⟩ := Except.bind_ok_iff.mp h
  obtain ⟨hreadCommon, hgetCommon⟩ := foldlM_overlayFile_ok hcommon
  obtain ⟨hreadFiles, hgetFiles⟩ := foldlM_overlayFile_ok hfiles
  simp only [Dict.get?_empty, Option.or_none] at hgetCommon
  rw [chosen_of_common hgetCommon] at hreadFiles hgetFiles h
  cases h
  refine ⟨rfl, ?_, fun key => ?_⟩
  · intro name hname
    exact (List.mem_append.mp hname).elim (hreadCommon name) (hreadFiles name)
  · rw [get?_overlay, hgetFiles, hgetCommon, ← told_append, told_layering, mergedFiles,
      List.reverse_append, List.map_append]

theorem exists_layers
    (h : ∀ name ∈ mergedFiles environment folder, Readable environment folder name) :
    ∃ values, layers environment folder = .ok (values, chosen environment folder) := by
  obtain ⟨common, hcommon⟩ := exists_foldlM_overlayFile ∅
    fun name hname => h name (List.mem_append_left _ hname)
  have hget := (foldlM_overlayFile_ok hcommon).2
  simp only [Dict.get?_empty, Option.or_none] at hget
  obtain ⟨files, hfiles⟩ := exists_foldlM_overlayFile common
    fun name hname => h name (List.mem_append_right _ hname)
  refine ⟨overlay files environment.entries, Except.bind_ok_iff.mpr ⟨common, hcommon, ?_⟩⟩
  simp only [chosen_of_common hget]
  exact Except.bind_ok_iff.mpr ⟨files, hfiles, rfl⟩

/-- Settings can be loaded exactly if all files can be read and the layers tell allowed settings. -/
theorem load_ok_iff : load environment folder = .ok s ↔
    (∀ name ∈ mergedFiles environment folder, Readable environment folder name) ∧
      s.profile = (given (layering environment folder (chosen environment folder)) "PROFILE").getD
        (chosen environment folder) ∧
      s.Follows (given (layering environment folder (chosen environment folder))) ∧
      s.validate = .ok () := by
  unfold load
  constructor
  · intro h
    obtain ⟨⟨values, profile⟩, hlayers, h⟩ := Except.bind_ok_iff.mp h
    obtain ⟨settings, hvalues, h⟩ := Except.bind_ok_iff.mp h
    obtain ⟨⟨⟩, hvalid, h⟩ := Except.bind_ok_iff.mp h
    cases h
    obtain ⟨rfl, hread, hget⟩ := layers_ok hlayers
    obtain ⟨hprofile, hfollows⟩ := ofValues_ok_iff.mp hvalues
    rw [text?_of_told hget] at hprofile hfollows
    exact ⟨hread, hprofile, hfollows, hvalid⟩
  · rintro ⟨hread, hprofile, hfollows, hvalid⟩
    obtain ⟨values, hlayers⟩ := exists_layers hread
    obtain ⟨-, -, hget⟩ := layers_ok hlayers
    rw [← text?_of_told hget] at hprofile hfollows
    exact Except.bind_ok_iff.mpr ⟨_, hlayers, Except.bind_ok_iff.mpr
      ⟨s, ofValues_ok_iff.mpr ⟨hprofile, hfollows⟩, Except.bind_ok_iff.mpr ⟨(), hvalid, rfl⟩⟩⟩

theorem told_eq_map (ls : List Layer) (key : String) :
    told ls key = (ls.map (lastOf? · key)).findSome? id := by
  rw [List.findSome?_map]
  rfl

theorem chosen_of_sameProfile {profile : String}
    (h : (layering environment folder profile).map (lastOf? · "PROFILE") =
      (layering environment' folder' profile).map (lastOf? · "PROFILE")) :
    chosen environment folder = chosen environment' folder' := by
  simp only [layering, List.map_cons, List.map_nil, List.cons.injEq] at h
  obtain ⟨hprocess, -, -, hlocal, hcommon, -⟩ := h
  unfold chosen
  rw [told_eq_map, told_eq_map]
  simp only [List.map_cons, List.map_nil, hprocess, hlocal, hcommon]

/-- Settings are told by the highest layers that define them. They stay the same as long as no
definition of the profile changes, and of another setting only those that a higher layer hides.
Variables that give no setting may change at will. -/
theorem highest_layer_tells (h : load environment folder = .ok s) :
    s.Follows (given (layering environment folder (chosen environment folder))) ∧
      ∀ environment' folder',
        (∀ name ∈ mergedFiles environment folder, Readable environment' folder' name) →
        ((layering environment folder (chosen environment folder)).map (lastOf? · "PROFILE") =
          (layering environment' folder' (chosen environment folder)).map (lastOf? · "PROFILE")) →
        (∀ key ≠ "PROFILE", AgreeWhereSeen key
          (layering environment folder (chosen environment folder))
          (layering environment' folder' (chosen environment folder))) →
        load environment' folder' = .ok s := by
  obtain ⟨hread, hprofile, hfollows, hvalid⟩ := load_ok_iff.mp h
  refine ⟨hfollows, fun environment' folder' hread' hsame hagree => ?_⟩
  have hchosen : chosen environment' folder' = chosen environment folder :=
    (chosen_of_sameProfile hsame).symm
  have htold : ∀ key, told (layering environment folder (chosen environment folder)) key =
      told (layering environment' folder' (chosen environment folder)) key := by
    intro key
    by_cases hkey : key = "PROFILE"
    · rw [told_eq_map, hkey, hsame, ← told_eq_map]
    · exact told_of_agreeWhereSeen (hagree key hkey)
  have hgiven : given (layering environment folder (chosen environment folder)) =
      given (layering environment' folder' (chosen environment folder)) := by
    funext key
    rw [given, given, htold]
  rw [hgiven] at hprofile hfollows
  unfold mergedFiles at hread'
  rw [← hchosen] at hread' hprofile hfollows
  exact load_ok_iff.mpr ⟨hread', hprofile, hfollows, hvalid⟩

end Load

/-- A process environment that blanks out the log level. -/
def blanking : Variables :=
  Dict.ofList [("REPOSYNC_LOG_LEVEL", " "), ("REPOSYNC_PROFILE", "test")]

/-- Files whose log level is hidden. -/
def hidden : Folder where
  path := "settings"
  files := Dict.ofList [(".env.test", "REPOSYNC_LOG_LEVEL=debug\n"),
    (".env", "REPOSYNC_MAX_NUM_RESETS=7\n")]
  folders := []

/-- The same files with another hidden value and a variable that is no setting. -/
def hiddenAnew : Folder where
  path := "settings"
  files := Dict.ofList [(".env.test", "EDITOR=vi\nREPOSYNC_LOG_LEVEL=trace\n"),
    (".env", "REPOSYNC_MAX_NUM_RESETS=7\n")]
  folders := []

theorem highest_layer_tells_blanked :
    let s : Settings := { default with
      profile := "test"
      worker := { WorkerSettings.default with maxNumResets := 7 } }
    load blanking hidden = .ok s ∧ load blanking hiddenAnew = .ok s := by
  intro s
  have h : load blanking hidden = .ok s := by decide +kernel
  have hlayers : layering blanking hidden (chosen blanking hidden) =
      [blanking.entries, [], [("REPOSYNC_LOG_LEVEL", "debug")], [],
        [("REPOSYNC_MAX_NUM_RESETS", "7")]] := by decide +kernel
  have hlayers' : layering blanking hiddenAnew (chosen blanking hidden) =
      [blanking.entries, [], [("EDITOR", "vi"), ("REPOSYNC_LOG_LEVEL", "trace")], [],
        [("REPOSYNC_MAX_NUM_RESETS", "7")]] := by decide +kernel
  refine ⟨h, (highest_layer_tells h).2 blanking hiddenAnew (by decide +kernel) ?_ ?_⟩
  · rw [hlayers, hlayers']
    decide +kernel
  · intro key hkey
    rw [hlayers, hlayers']
    refine ⟨rfl, fun hblank => ⟨rfl, fun _ => ⟨?_, fun _ => ⟨rfl, fun _ =>
      ⟨rfl, fun _ => trivial⟩⟩⟩⟩⟩
    have hlog : variableOf key ≠ "REPOSYNC_LOG_LEVEL" := by
      intro heq
      have hkey : key = "LOG_LEVEL" := variableOf_inj.mp heq
      subst hkey
      exact absurd hblank (by decide +kernel)
    have hother : variableOf key ≠ "EDITOR" := by
      intro heq
      have hno : settingOf? "EDITOR" = none := by decide +kernel
      cases hno.symm.trans (settingOf?_eq_some_iff.mpr heq.symm)
    rw [lastOf?_eq_none_iff.mpr, lastOf?_eq_none_iff.mpr]
    · simp [hlog, hother]
    · simp [hlog]

end Settings

end RepoCatalog
