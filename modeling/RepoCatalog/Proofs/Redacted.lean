import RepoCatalog.Proofs.Userinfo
import RepoCatalog.Settings.Database

/-!
# What redacted settings tell of a password

Settings are shown with the password of the database masked. Two passwords cannot be told apart by
what is shown, unless the address of the database is no URL: then the address is shown as it is.
-/
namespace RepoCatalog

open Text (Ascii.isLetter Ascii.isAlphanumeric)

namespace Url

theorem exists_finishAuthority (scheme : String) (cs : List Char) : ∃ path query fragment,
    ∀ a, finishAuthority scheme a cs = ⟨scheme, some a, path, query, fragment⟩ := by
  unfold finishAuthority
  split
  · exact ⟨_, _, _, fun a => rfl⟩
  · dsimp only
    split
    · exact ⟨_, _, _, fun a => rfl⟩
    · split
      · exact ⟨_, _, _, fun a => rfl⟩
      · exact ⟨_, _, _, fun a => rfl⟩

end Url

namespace Json

theorem quote_inj {s t : String} : quote s = quote t ↔
    s.toList.flatMap escapeChar = t.toList.flatMap escapeChar := by
  unfold quote
  rw [String.ofList_inj, List.append_cancel_right_eq, List.cons.injEq]
  exact and_iff_right rfl

theorem escapeChar_of_alphanumeric {c : Char} (h : Ascii.isAlphanumeric c = true) :
    escapeChar c = [c] := by
  have hlow := Url.toNat_of_alphanumeric h
  have hne : ∀ d : Char, Ascii.isAlphanumeric d = false → c ≠ d := by
    rintro d hd rfl
    rw [h] at hd
    cases hd
  unfold escapeChar
  rw [if_neg (hne '"' (by decide)), if_neg (hne '\\' (by decide)), if_neg (by omega),
    if_neg (by omega), if_neg (hne '\n' (by decide)), if_neg (hne '\r' (by decide)),
    if_neg (hne '\t' (by decide)), if_neg (by omega)]

theorem exists_prettyMembers (level : Nat) (ms ms' : List (String × Value)) (name : String) :
    ∃ before after, ∀ v, Value.prettyMembers level (ms ++ (name, v) :: ms') =
      before ++ Value.prettyAt (level + 1) v ++ after := by
  induction ms with
  | nil =>
      refine ⟨"," ++ lineBreak (level + 1) ++ quote name ++ ": ", Value.prettyMembers level ms',
        fun v => ?_⟩
      rw [List.nil_append, Value.prettyMembers]
  | cons m ms ih =>
      obtain ⟨before, after, h⟩ := ih
      refine ⟨"," ++ lineBreak (level + 1) ++ quote m.1 ++ ": " ++ Value.prettyAt (level + 1) m.2 ++
        before, after, fun v => ?_⟩
      rw [List.cons_append, Value.prettyMembers, h]
      simp only [String.append_assoc]

theorem exists_prettyAt_object (level : Nat) (m : String × Value) (ms ms' : List (String × Value))
    (name : String) : ∃ before after, ∀ v,
    Value.prettyAt level (.object (m :: (ms ++ (name, v) :: ms'))) =
      before ++ Value.prettyAt (level + 1) v ++ after := by
  obtain ⟨before, after, h⟩ := exists_prettyMembers level ms ms' name
  refine ⟨"\x7b" ++ lineBreak (level + 1) ++ quote m.1 ++ ": " ++ Value.prettyAt (level + 1) m.2 ++
    before, after, fun v => ?_⟩
  rw [Value.prettyAt, h]
  simp only [String.append_assoc]

end Json

namespace Settings

theorem maskPassword_of_ok [Url.HostNames] {address own username password : String}
    {host : Url.Host} {port : Option Nat} {after : List Char}
    (h : Url.parse address =
      .ok (Url.finishAuthority own ⟨username, some password, host, port⟩ after))
    (hhost : host.isEmpty = false) (hown : own ≠ "file") :
    maskPassword address = (Url.finishAuthority own
      ⟨username, some (Url.percentEncode Url.EncodeSet.userinfo passwordMask.toList), host, port⟩
      after).text := by
  obtain ⟨path, query, fragment, hfinish⟩ := Url.exists_finishAuthority own after
  rw [hfinish] at h ⊢
  unfold maskPassword
  rw [h]
  simp [Url.password?, Url.withPassword?, hhost, hown]

theorem maskPassword_of_error [Url.HostNames] {address : String} {e : Url.Error}
    (h : Url.parse address = .error e) : maskPassword address = address := by
  unfold maskPassword
  rw [h]

/-- The address of the database stands in one place of what is shown. -/
theorem exists_redactedText [Url.HostNames] (s : Settings) : ∃ before after, ∀ address,
    { s with databaseUrl := address }.redactedText =
      before ++ Json.quote (maskPassword address) ++ after := by
  obtain ⟨before, after, h⟩ := Json.exists_prettyAt_object 0 ("PROFILE", .string s.profile)
    [("LOG_LEVEL", .string s.logLevel), ("LOG_FORMAT", .string s.logFormat)]
    [("DB_MAX_CONNECTIONS", .nat s.dbMaxConnections),
      ("DB_ACQUIRE_TIMEOUT_MS", .nat s.dbAcquireTimeoutMs), ("SYNC", s.sync.encode),
      ("WORKER", s.worker.encode)] "DATABASE_URL"
  exact ⟨before, after, fun address => h (.string (maskPassword address))⟩

theorem redactedText_eq_iff [Url.HostNames] {s : Settings} {address address' : String} :
    { s with databaseUrl := address }.redactedText =
        { s with databaseUrl := address' }.redactedText ↔
      Json.quote (maskPassword address) = Json.quote (maskPassword address') := by
  obtain ⟨before, after, h⟩ := exists_redactedText s
  rw [h, h, ← String.toList_inj]
  simp only [String.toList_append]
  rw [List.append_cancel_right_eq, List.append_cancel_left_eq, String.toList_inj]

/-- Addresses that are shown as they are show their passwords. -/
theorem quote_addressWith_inj {scheme user p q rest : String}
    (hp : ∀ c ∈ p.toList, Ascii.isAlphanumeric c = true)
    (hq : ∀ c ∈ q.toList, Ascii.isAlphanumeric c = true) :
    Json.quote (Url.addressWith scheme user p rest) =
      Json.quote (Url.addressWith scheme user q rest) ↔ p = q := by
  have hshown : ∀ cs : List Char, (∀ c ∈ cs, Ascii.isAlphanumeric c = true) →
      cs.flatMap Json.escapeChar = cs := by
    intro cs hcs
    induction cs with
    | nil => rfl
    | cons c cs ih =>
        rw [List.flatMap_cons, Json.escapeChar_of_alphanumeric (hcs c List.mem_cons_self),
          ih fun d hd => hcs d (List.mem_cons_of_mem c hd), List.singleton_append]
  rw [Json.quote_inj]
  unfold Url.addressWith
  simp only [String.toList_append, List.flatMap_append]
  rw [List.append_cancel_right_eq, List.append_cancel_right_eq, List.append_cancel_left_eq,
    hshown _ hp, hshown _ hq, String.toList_inj]

/-- Two passwords of letters and digits cannot be told apart by what is shown, unless the address
that holds them is no URL. -/
theorem passwords_hidden_iff [Url.HostNames] (s : Settings) {scheme user p q rest : String}
    (hscheme : ∀ c ∈ scheme.toList, Ascii.isLetter c = true)
    (huser : ∀ c ∈ user.toList, Ascii.isLetter c = true)
    (hp : ∀ c ∈ p.toList, Ascii.isAlphanumeric c = true) (hp' : p ≠ "")
    (hq : ∀ c ∈ q.toList, Ascii.isAlphanumeric c = true) (hq' : q ≠ "") :
    { s with databaseUrl := Url.addressWith scheme user p rest }.redactedText =
        { s with databaseUrl := Url.addressWith scheme user q rest }.redactedText ↔
      p = q ∨ ∃ url, Url.parse (Url.addressWith scheme user p rest) = .ok url := by
  rw [redactedText_eq_iff]
  rcases Url.parse_addressWith scheme user rest hscheme huser with
    ⟨e, herror⟩ | ⟨own, username, host, port, more, after, hhost, hown, hok⟩
  · rw [maskPassword_of_error (herror p hp hp'), maskPassword_of_error (herror q hq hq'),
      quote_addressWith_inj hp hq, herror p hp hp']
    exact ⟨.inl, fun h => h.resolve_right nofun⟩
  · rw [maskPassword_of_ok (hok p hp hp') hhost hown, maskPassword_of_ok (hok q hq hq') hhost hown,
      hok p hp hp']
    exact ⟨fun _ => .inr ⟨_, rfl⟩, fun _ => rfl⟩

theorem passwords_hidden_iff_at_host :
    (∃ url, Url.parse (Url.addressWith "postgres" "sync" "hunter2" "x@[::1]:5432/db?sslmode=off#") =
      .ok url) ∧
    { default with
      databaseUrl := Url.addressWith "postgres" "sync" "hunter2" "x@[::1]:5432/db?sslmode=off#"
      }.redactedText =
    { default with
      databaseUrl := Url.addressWith "postgres" "sync" "k9" "x@[::1]:5432/db?sslmode=off#"
      }.redactedText := by
  have hurl : ∃ url,
      Url.parse (Url.addressWith "postgres" "sync" "hunter2" "x@[::1]:5432/db?sslmode=off#") =
        .ok url := ⟨_, rfl⟩
  exact ⟨hurl, (passwords_hidden_iff default (List.all_eq_true.mp (by decide))
    (List.all_eq_true.mp (by decide)) (List.all_eq_true.mp (by decide)) (by decide)
    (List.all_eq_true.mp (by decide)) (by decide)).mpr (.inr hurl)⟩

/-- The port of this address is no number, and so its password is shown. -/
theorem password_shown_at_bad_port :
    { default with
      databaseUrl := Url.addressWith "postgres" "sync" "hunter2" "db:port/x" }.redactedText ≠
    { default with
      databaseUrl := Url.addressWith "postgres" "sync" "k9" "db:port/x" }.redactedText := by
  decide +kernel

end Settings

end RepoCatalog
