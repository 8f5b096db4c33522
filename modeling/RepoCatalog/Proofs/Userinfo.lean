import Mathlib.Data.List.Basic
import RepoCatalog.Proofs.Results
import RepoCatalog.Url.Parser

/-!
# URLs with a password

What is read after the user and the password of a URL does not depend on the password.
-/
namespace RepoCatalog

theorem List.dropWhile_append_cons {α : Type} {p : α → Bool} {a : α} (as bs : List α)
    (ha : p a = false) : (as ++ a :: bs).dropWhile p = as.dropWhile p ++ a :: bs := by
  induction as with
  | nil => exact List.dropWhile_cons_of_neg (by simp [ha])
  | cons b as ih =>
      rw [List.cons_append, List.dropWhile_cons, List.dropWhile_cons, ih]
      split <;> rfl

namespace Url

open Text (Ascii.isLetter Ascii.isAlphanumeric)

def readHost [HostNames] (c : SchemeClass) (name : List Char) : Except Error Host :=
  if c.isSpecial then parseHost name else parsePlainHost name

/-- What stands after the at sign of an authority: the host, the port and the rest. -/
def locate [HostNames] (scheme : String) (cs : List Char) :
    Except Error (Host × Option Nat × List Char) := do
  let c := SchemeClass.of scheme
  let n := hostLength c false cs
  if c.isSpecial ∧ (cs.take n).isEmpty then throw .emptyHost
  let host ← readHost c (cs.take n)
  if host.isEmpty then throw .emptyHost
  match cs.drop n with
  | ':' :: rest =>
    let (port, rest) ← parsePort scheme rest
    return (host, port, rest)
  | _ => return (host, none, cs.drop n)

/-- An authority whose user and password are read already. -/
def authorityAfter [HostNames] (scheme : String) (user : String × Option String) (cs : List Char) :
    Except Error (Authority × List Char) := do
  let c := SchemeClass.of scheme
  let n := hostLength c false cs
  if c.isSpecial ∧ (cs.take n).isEmpty then throw .emptyHost
  let host ← readHost c (cs.take n)
  match cs.drop n with
  | ':' :: rest =>
    if host.isEmpty then throw .emptyHost
    let (port, rest) ← parsePort scheme rest
    return (⟨user.1, user.2, host, port⟩, rest)
  | _ =>
    if host.isEmpty ∧ (!user.1.isEmpty ∨ user.2.isSome) then throw .emptyHost
    return (⟨user.1, user.2, host, none⟩, cs.drop n)

/-- What stands between the first and the last at sign of an authority. -/
def passwordEnd (scheme : String) (rest : List Char) : List Char :=
  let extent := '@' :: rest.takeWhile fun ch => !endsAuthority (SchemeClass.of scheme) ch
  (extent.reverse.dropWhile (· != '@')).reverse.dropLast

theorem beq_of_alphanumeric {ch d : Char} (h : Ascii.isAlphanumeric ch = true)
    (hd : Ascii.isAlphanumeric d = false) : (ch == d) = false := by
  rw [beq_eq_false_iff_ne]
  rintro rfl
  rw [h] at hd
  cases hd

theorem endsAuthority_of_alphanumeric {c : SchemeClass} {ch : Char}
    (h : Ascii.isAlphanumeric ch = true) : endsAuthority c ch = false := by
  unfold endsAuthority
  rw [beq_of_alphanumeric h (d := '/') (by decide), beq_of_alphanumeric h (d := '?') (by decide),
    beq_of_alphanumeric h (d := '#') (by decide), beq_of_alphanumeric h (d := '\\') (by decide),
    Bool.and_false]
  rfl

theorem isAlphanumeric_of_isLetter {ch : Char} (h : Ascii.isLetter ch = true) :
    Ascii.isAlphanumeric ch = true := by
  unfold Ascii.isAlphanumeric
  rw [h, Bool.true_or]

theorem not_mem_of_alphanumeric {cs : List Char} {d : Char}
    (h : ∀ c ∈ cs, Ascii.isAlphanumeric c = true) (hd : Ascii.isAlphanumeric d = false) :
    d ∉ cs := by
  intro hmem
  rw [h d hmem] at hd
  cases hd

section Credentials

variable {user password : List Char} (huser : ∀ c ∈ user, Ascii.isLetter c = true)
  (hpassword : ∀ c ∈ password, Ascii.isAlphanumeric c = true)

include huser hpassword

theorem takeWhile_credentials (c : SchemeClass) (rest : List Char) :
    (user ++ ':' :: (password ++ '@' :: rest)).takeWhile (fun ch => !endsAuthority c ch) =
      (user ++ ':' :: password) ++ '@' :: rest.takeWhile fun ch => !endsAuthority c ch := by
  have hkeep : ∀ ch, Ascii.isAlphanumeric ch = true → (!endsAuthority c ch) = true := by
    intro ch hch
    rw [endsAuthority_of_alphanumeric hch]
    rfl
  have hcolon : (!endsAuthority c ':') = true := by cases c <;> decide
  have hat : (!endsAuthority c '@') = true := by cases c <;> decide
  have hletters := fun ch hch => hkeep ch (isAlphanumeric_of_isLetter (huser ch hch))
  rw [List.takeWhile_append_of_pos hletters,
    List.takeWhile_cons_of_pos (p := fun ch => !endsAuthority c ch) hcolon,
    List.takeWhile_append_of_pos fun ch hch => hkeep ch (hpassword ch hch),
    List.takeWhile_cons_of_pos (p := fun ch => !endsAuthority c ch) hat, List.append_assoc,
    List.cons_append]

end Credentials

theorem parseUserinfo_credentials {user password : List Char} (huser : ':' ∉ user)
    (hne : password ≠ []) : parseUserinfo (user ++ ':' :: password) =
      (percentEncode EncodeSet.userinfo user,
        some (percentEncode EncodeSet.userinfo password)) := by
  have hkeep : ∀ c ∈ user, (c != ':') = true := by
    intro c hc
    rw [bne_iff_ne]
    rintro rfl
    exact huser hc
  unfold parseUserinfo
  rw [List.dropWhile_append_of_pos hkeep, List.takeWhile_append_of_pos hkeep,
    List.dropWhile_cons_of_neg (by decide), List.takeWhile_cons_of_neg (by decide), List.append_nil]
  simp only [List.isEmpty_iff, hne, if_false]

theorem beforeLast_append {α : Type} {p : α → Bool} (as bs : List α) {b : α} (hb : p b = false) :
    (((as ++ b :: bs).reverse.dropWhile p).reverse).dropLast =
      as ++ (((b :: bs).reverse.dropWhile p).reverse).dropLast := by
  rw [List.reverse_append, List.reverse_cons, List.append_assoc, List.singleton_append,
    List.dropWhile_append_cons _ _ hb, List.dropWhile_append_cons _ _ hb, List.reverse_append,
    List.reverse_append, List.reverse_cons, List.reverse_cons, List.reverse_reverse,
    List.append_assoc, List.singleton_append]
  rw [List.dropLast_append_of_ne_nil]
  · rfl
  · simp

theorem parseAuthority_of_userinfo [HostNames] {scheme : String} {cs extent userinfo : List Char}
    (hextent : (cs.takeWhile fun ch => !endsAuthority (SchemeClass.of scheme) ch) = extent)
    (hat : extent.contains '@' = true)
    (huserinfo : (extent.reverse.dropWhile (· != '@')).reverse.dropLast = userinfo)
    (hne : userinfo.isEmpty = false) :
    parseAuthority scheme cs =
      authorityAfter scheme (parseUserinfo userinfo) (cs.drop (userinfo.length + 1)) := by
  unfold parseAuthority authorityAfter readHost
  simp only [hextent, hat, huserinfo, hne, if_true, Bool.false_eq_true, false_and, and_false,
    if_false]
  cases (SchemeClass.of scheme).isSpecial <;> rfl

theorem authorityAfter_password [HostNames] (scheme username password : String) (cs : List Char) :
    authorityAfter scheme (username, some password) cs =
      (locate scheme cs).map fun x => (⟨username, some password, x.1, x.2.1⟩, x.2.2) := by
  unfold authorityAfter locate
  simp only [Option.isSome_some, or_true, and_true]
  split
  · rfl
  · cases readHost (SchemeClass.of scheme)
      (cs.take (hostLength (SchemeClass.of scheme) false cs)) with
    | error e => rfl
    | ok host =>
        simp only [bind, Except.bind]
        cases host.isEmpty with
        | true =>
            simp only [if_true]
            split <;> rfl
        | false =>
            simp only [Bool.false_eq_true, if_false]
            split
            · cases parsePort scheme _ <;> rfl
            · rfl

theorem isEmpty_of_locate [HostNames] {scheme : String} {cs cs' : List Char} {host : Host}
    {port : Option Nat} (h : locate scheme cs = .ok (host, port, cs')) : host.isEmpty = false := by
  unfold locate at h
  dsimp only at h
  split at h
  · cases h
  · obtain ⟨host', -, h⟩ := Except.bind_ok_iff.mp h
    by_cases hhost : host'.isEmpty = true
    · rw [if_pos hhost] at h
      cases h
    · rw [if_neg hhost] at h
      rw [Bool.not_eq_true] at hhost
      split at h
      · obtain ⟨⟨port', rest⟩, -, h⟩ := Except.bind_ok_iff.mp h
        cases h
        exact hhost
      · cases h
        exact hhost

theorem parseAuthority_credentials [HostNames] {user password : List Char}
    (huser : ∀ c ∈ user, Ascii.isLetter c = true)
    (hpassword : ∀ c ∈ password, Ascii.isAlphanumeric c = true) (hne : password ≠ [])
    (scheme : String) (rest : List Char) :
    parseAuthority scheme (user ++ ':' :: (password ++ '@' :: rest)) =
      (locate scheme (rest.drop (passwordEnd scheme rest).length)).map fun x =>
        (⟨percentEncode EncodeSet.userinfo user,
          some (percentEncode EncodeSet.userinfo (password ++ passwordEnd scheme rest)),
          x.1, x.2.1⟩, x.2.2) := by
  have hcolon : ':' ∉ user :=
    not_mem_of_alphanumeric (fun c hc => isAlphanumeric_of_isLetter (huser c hc)) (by decide)
  have hbefore : (user ++ ':' :: password) ++ passwordEnd scheme rest =
      user ++ ':' :: (password ++ passwordEnd scheme rest) := by simp
  have hafter : (user ++ ':' :: (password ++ '@' :: rest)).drop
      ((user ++ ':' :: (password ++ passwordEnd scheme rest)).length + 1) =
      rest.drop (passwordEnd scheme rest).length := by
    rw [← hbefore, show user ++ ':' :: (password ++ '@' :: rest) =
      (user ++ ':' :: password) ++ '@' :: rest by simp, List.length_append, Nat.add_assoc,
      List.drop_length_add_append, List.drop_succ_cons]
  rw [parseAuthority_of_userinfo (takeWhile_credentials huser hpassword _ rest) (by simp)
    ((beforeLast_append _ _ (by decide)).trans hbefore) (by simp), hafter,
    parseUserinfo_credentials hcolon (by simp [hne]), authorityAfter_password]

theorem parseAfterSlashes_credentials [HostNames] {user password : List Char}
    (huser : ∀ c ∈ user, Ascii.isLetter c = true)
    (hpassword : ∀ c ∈ password, Ascii.isAlphanumeric c = true) (hne : password ≠ [])
    (scheme : String) (rest : List Char) :
    parseAfterSlashes scheme (user ++ ':' :: (password ++ '@' :: rest)) =
      (locate scheme (rest.drop (passwordEnd scheme rest).length)).map fun x =>
        finishAuthority scheme ⟨percentEncode EncodeSet.userinfo user,
          some (percentEncode EncodeSet.userinfo (password ++ passwordEnd scheme rest)),
          x.1, x.2.1⟩ x.2.2 := by
  rw [parseAfterSlashes, parseAuthority_credentials huser hpassword hne]
  cases locate scheme (rest.drop (passwordEnd scheme rest).length) <;> rfl

/-- The text of a URL with a user and a password. -/
def addressWith (scheme user password rest : String) : String :=
  scheme ++ "://" ++ user ++ ":" ++ password ++ "@" ++ rest

/-- What is read of the end of a text. -/
def keptEnd (cs : List Char) : List Char :=
  (cs.reverse.dropWhile (·.toNat ≤ 32)).reverse.filter fun c => c != '\t' && c != '\n' && c != '\r'

theorem toNat_of_alphanumeric {c : Char} (h : Ascii.isAlphanumeric c = true) : 48 ≤ c.toNat := by
  unfold Ascii.isAlphanumeric Ascii.isLetter Text.Ascii.isDigit at h
  simp only [Bool.or_eq_true, Bool.and_eq_true, decide_eq_true_eq, Char.le_def,
    UInt32.le_iff_toNat_le] at h
  have ha : 'a'.val.toNat = 97 := rfl
  have hA : 'A'.val.toNat = 65 := rfl
  have h0 : '0'.val.toNat = 48 := rfl
  change 48 ≤ c.val.toNat
  omega

theorem significant_of_visible {s : String} {front rest : List Char} {last : Char}
    (hs : s.toList = front ++ last :: rest) (hfront : ∀ c ∈ front, 32 < c.toNat)
    (hlast : 32 < last.toNat) : significant s = front ++ last :: keptEnd rest := by
  have hkept : ∀ c : Char, 32 < c.toNat → (c != '\t' && c != '\n' && c != '\r') = true := by
    intro c hc
    have hne : ∀ d : Char, d.toNat ≤ 32 → (c != d) = true := by
      intro d hd
      rw [bne_iff_ne]
      rintro rfl
      omega
    rw [hne '\t' (by decide), hne '\n' (by decide), hne '\r' (by decide)]
    rfl
  have hstart : (front ++ last :: rest).dropWhile (·.toNat ≤ 32) = front ++ last :: rest := by
    cases front with
    | nil => exact List.dropWhile_cons_of_neg (by simpa using hlast)
    | cons c front =>
        exact List.dropWhile_cons_of_neg (by simpa using hfront c List.mem_cons_self)
  have hlast' : decide (last.toNat ≤ 32) = false := decide_eq_false (by omega)
  unfold significant keptEnd
  dsimp only
  rw [hs, hstart, List.reverse_append, List.reverse_cons, List.append_assoc, List.singleton_append,
    List.dropWhile_append_cons (p := fun c : Char => decide (c.toNat ≤ 32)) _ _ hlast',
    List.reverse_append, List.reverse_cons,
    List.reverse_reverse, List.append_assoc, List.singleton_append, List.filter_append,
    List.filter_cons_of_pos (p := fun c => c != '\t' && c != '\n' && c != '\r') (hkept last hlast),
    List.filter_eq_self.mpr fun c hc => hkept c (hfront c hc)]

theorem splitScheme?_of_letters {scheme : List Char} (rest : List Char)
    (h : ∀ c ∈ scheme, Ascii.isLetter c = true) (hne : scheme ≠ []) :
    splitScheme? (scheme ++ ':' :: rest) =
      some (Text.Ascii.lower (String.ofList scheme), rest) := by
  have hpart : ∀ c ∈ scheme,
      (Ascii.isAlphanumeric c || c == '+' || c == '-' || c == '.') = true := by
    intro c hc
    rw [isAlphanumeric_of_isLetter (h c hc)]
    rfl
  unfold splitScheme?
  dsimp only
  rw [List.dropWhile_append_of_pos hpart, List.takeWhile_append_of_pos hpart,
    List.dropWhile_cons_of_neg (by decide), List.takeWhile_cons_of_neg (by decide), List.append_nil]
  cases scheme with
  | nil => exact absurd rfl hne
  | cons c scheme =>
      simp only [List.cons_append, List.head?_cons]
      rw [if_pos (h c List.mem_cons_self)]

theorem decodedBytes_cons {c : Char} (cs : List Char) (h : c ≠ '%') :
    decodedBytes (c :: cs) = (String.singleton c).toUTF8.toList ++ decodedBytes cs := by
  rw [decodedBytes]
  intro a b cs' hc
  exact absurd hc h

theorem toNat_of_mem_utf8EncodeChar {c : Char} {b : UInt8} (h : b ∈ String.utf8EncodeChar c)
    (hb : b.toNat < 128) : c.toNat = b.toNat := by
  have hc : c.val.toNat = c.toNat := rfl
  unfold String.utf8EncodeChar at h
  simp only [hc] at h
  split at h
  · rw [List.mem_singleton.mp h, UInt8.toNat_ofNat']
    omega
  · have hhigh : ∀ n, 128 ≤ n → n < 256 → b ≠ UInt8.ofNat n := by
      rintro n hlow hhigh rfl
      rw [UInt8.toNat_ofNat'] at hb
      omega
    split at h
    · simp only [List.mem_cons, List.not_mem_nil, or_false] at h
      rcases h with h | h <;> exact absurd h (hhigh _ (by omega) (by omega))
    · split at h
      · simp only [List.mem_cons, List.not_mem_nil, or_false] at h
        rcases h with h | h | h <;> exact absurd h (hhigh _ (by omega) (by omega))
      · simp only [List.mem_cons, List.not_mem_nil, or_false] at h
        rcases h with h | h | h | h <;> exact absurd h (hhigh _ (by omega) (by omega))

theorem utf8Encode_of_percentDecode? {cs ds : List Char} (h : percentDecode? cs = some ds) :
    ds.flatMap String.utf8EncodeChar = decodedBytes cs := by
  obtain ⟨s, hs, rfl⟩ := Option.map_eq_some_iff.mp h
  have hbytes : s.toByteArray = (decodedBytes cs).toByteArray := by
    unfold String.fromUTF8? at hs
    split at hs
    · cases hs
      rfl
    · cases hs
  exact List.toByteArray_inj.mp (String.utf8Encode_toList.trans hbytes)

/-- A colon that stands after letters is not decoded away. -/
theorem colon_mem_of_percentDecode? {user cs ds : List Char}
    (huser : ∀ c ∈ user, Ascii.isLetter c = true)
    (h : percentDecode? (user ++ ':' :: cs) = some ds) : ':' ∈ ds := by
  have hbyte : (58 : UInt8) ∈ decodedBytes (user ++ ':' :: cs) := by
    clear h
    induction user with
    | nil =>
        rw [List.nil_append, decodedBytes_cons _ (by decide)]
        exact List.mem_append_left _ (by decide +kernel)
    | cons c user ih =>
        have hc : c ≠ '%' := by
          rintro rfl
          exact absurd (huser '%' List.mem_cons_self) (by decide)
        rw [List.cons_append, decodedBytes_cons _ hc]
        exact List.mem_append_right _ (ih fun d hd => huser d (List.mem_cons_of_mem c hd))
  rw [← utf8Encode_of_percentDecode? h] at hbyte
  obtain ⟨c, hc, hmem⟩ := List.mem_flatMap.mp hbyte
  have hcolon : c = ':' :=
    Char.toNat_inj.mp (toNat_of_mem_utf8EncodeChar hmem (by decide))
  exact hcolon ▸ hc

theorem parseHost_of_colon [HostNames] {user : List Char} (cs : List Char)
    (huser : ∀ c ∈ user, Ascii.isLetter c = true) :
    parseHost (user ++ ':' :: cs) = .error .invalidDomain := by
  have hnone : percentDecode? (user ++ ':' :: cs) >>= Domain.toBasic? = none := by
    cases h : percentDecode? (user ++ ':' :: cs) with
    | none => rfl
    | some ds =>
        exact Domain.toBasic?_of_forbidden (colon_mem_of_percentDecode? huser h) (by decide)
  unfold parseHost
  split
  · rename_i rest heq
    cases user with
    | nil => cases heq
    | cons c user =>
        cases heq
        exact absurd (huser '[' List.mem_cons_self) (by decide)
  · rw [hnone]

theorem parseFile_credentials [HostNames] {user password : List Char} (rest : List Char)
    (huser : ∀ c ∈ user, Ascii.isLetter c = true)
    (hpassword : ∀ c ∈ password, Ascii.isAlphanumeric c = true) (hne : password ≠ []) :
    parseFile none ('/' :: '/' :: (user ++ ':' :: (password ++ '@' :: rest))) =
      .error .invalidDomain := by
  let inName : Char → Bool := fun ch => !(ch == '/' || ch == '\\' || endsPath ch)
  have hkeep : ∀ ch, Ascii.isAlphanumeric ch = true → inName ch = true := by
    intro ch hch
    simp only [inName, endsPath, beq_of_alphanumeric hch (d := '/') (by decide),
      beq_of_alphanumeric hch (d := '\\') (by decide),
      beq_of_alphanumeric hch (d := '?') (by decide),
      beq_of_alphanumeric hch (d := '#') (by decide)]
    rfl
  have hname : (user ++ ':' :: (password ++ '@' :: rest)).takeWhile inName =
      user ++ ':' :: (password ++ '@' :: rest.takeWhile inName) := by
    have hletters := fun ch hch => hkeep ch (isAlphanumeric_of_isLetter (huser ch hch))
    rw [List.takeWhile_append_of_pos hletters, List.takeWhile_cons_of_pos (by decide),
      List.takeWhile_append_of_pos fun ch hch => hkeep ch (hpassword ch hch),
      List.takeWhile_cons_of_pos (by decide)]
  have htake : (user ++ ':' :: (password ++ '@' :: rest)).take ((user ++ ':' :: (password ++
      '@' :: rest)).takeWhile fun ch => !(ch == '/' || ch == '\\' || endsPath ch)).length =
      user ++ ':' :: (password ++ '@' :: rest.takeWhile inName) := by
    rw [← List.prefix_iff_eq_take.mp (List.takeWhile_prefix _)]
    exact hname
  have hdrive :
      isDriveLetter (user ++ ':' :: (password ++ '@' :: rest.takeWhile inName)) = false := by
    have hlength := List.length_pos_iff.mpr hne
    unfold isDriveLetter
    split
    · rename_i a b heq
      have := congrArg List.length heq
      simp only [List.length_append, List.length_cons, List.length_nil] at this
      omega
    · rfl
  unfold parseFile
  dsimp only
  rw [if_pos (by decide), htake, hdrive, parseHost_of_colon _ huser, if_neg (by simp)]
  rfl

theorem significant_addressWith {scheme user password : String}
    (hscheme : ∀ c ∈ scheme.toList, Ascii.isLetter c = true)
    (huser : ∀ c ∈ user.toList, Ascii.isLetter c = true)
    (hpassword : ∀ c ∈ password.toList, Ascii.isAlphanumeric c = true) (rest : String) :
    significant (addressWith scheme user password rest) =
      scheme.toList ++ ':' :: '/' :: '/' ::
        (user.toList ++ ':' :: (password.toList ++ '@' :: keptEnd rest.toList)) := by
  have hletters : ∀ c, Ascii.isLetter c = true → 32 < c.toNat := fun c hc =>
    Nat.lt_of_lt_of_le (by decide) (toNat_of_alphanumeric (isAlphanumeric_of_isLetter hc))
  have hfront : ∀ c ∈ scheme.toList ++ ':' :: '/' :: '/' :: (user.toList ++ ':' :: password.toList),
      32 < c.toNat := by
    intro c hc
    simp only [List.mem_append, List.mem_cons] at hc
    rcases hc with hc | rfl | rfl | rfl | hc | rfl | hc
    · exact hletters c (hscheme c hc)
    · decide
    · decide
    · decide
    · exact hletters c (huser c hc)
    · decide
    · exact Nat.lt_of_lt_of_le (by decide) (toNat_of_alphanumeric (hpassword c hc))
  have htext : (addressWith scheme user password rest).toList =
      (scheme.toList ++ ':' :: '/' :: '/' :: (user.toList ++ ':' :: password.toList)) ++
        '@' :: rest.toList := by
    simp [addressWith]
  rw [significant_of_visible htext hfront (by decide)]
  simp

theorem dropWhile_isSlash_slashes {cs : List Char} {c : Char}
    (hc : (c == '/' || c == '\\') = false) :
    ('/' :: '/' :: c :: cs).dropWhile (fun ch => ch == '/' || ch == '\\') = c :: cs := by
  rw [List.dropWhile_cons_of_pos (by decide), List.dropWhile_cons_of_pos (by decide),
    List.dropWhile_cons_of_neg (by simp [hc])]

theorem parse_of_scheme [HostNames] {s : String} {scheme user cs : List Char}
    (hs : significant s = scheme ++ ':' :: '/' :: '/' :: (user ++ ':' :: cs))
    (hscheme : ∀ c ∈ scheme, Ascii.isLetter c = true) (hne : scheme ≠ [])
    (huser : ∀ c ∈ user, Ascii.isLetter c = true) :
    parse s = if SchemeClass.of (Text.Ascii.lower (String.ofList scheme)) = .file then
        parseFile none ('/' :: '/' :: (user ++ ':' :: cs))
      else parseAfterSlashes (Text.Ascii.lower (String.ofList scheme)) (user ++ ':' :: cs) := by
  have hslash : ('/' :: '/' :: (user ++ ':' :: cs)).dropWhile (fun ch => ch == '/' || ch == '\\') =
      user ++ ':' :: cs := by
    cases user with
    | nil => exact dropWhile_isSlash_slashes (by decide)
    | cons c user =>
        have hc := isAlphanumeric_of_isLetter (huser c List.mem_cons_self)
        exact dropWhile_isSlash_slashes (by
          rw [beq_of_alphanumeric hc (by decide), beq_of_alphanumeric hc (by decide)]
          rfl)
  unfold parse parseWith
  simp only [hs, splitScheme?_of_letters _ hscheme hne]
  cases SchemeClass.of (Text.Ascii.lower (String.ofList scheme)) with
  | file => rfl
  | special => exact congrArg (parseAfterSlashes _) hslash
  | plain => rfl

/-- A text with a user and a password is no URL whatever the password, or what is read of it depends
on the password in one place. -/
theorem parse_addressWith [HostNames] (scheme user rest : String)
    (hscheme : ∀ c ∈ scheme.toList, Ascii.isLetter c = true)
    (huser : ∀ c ∈ user.toList, Ascii.isLetter c = true) :
    (∃ e, ∀ password : String, (∀ c ∈ password.toList, Ascii.isAlphanumeric c = true) →
      password ≠ "" → parse (addressWith scheme user password rest) = .error e) ∨
    ∃ (own username : String) (host : Host) (port : Option Nat) (more after : List Char),
      host.isEmpty = false ∧ own ≠ "file" ∧
      ∀ password : String, (∀ c ∈ password.toList, Ascii.isAlphanumeric c = true) →
        password ≠ "" → parse (addressWith scheme user password rest) =
          .ok (finishAuthority own ⟨username,
            some (percentEncode EncodeSet.userinfo (password.toList ++ more)), host, port⟩
            after) := by
  by_cases hempty : scheme.toList = []
  · refine .inl ⟨.relativeWithoutBase, fun password hpassword _ => ?_⟩
    unfold parse parseWith
    simp only [significant_addressWith hscheme huser hpassword, hempty]
    rfl
  have hparse := fun (password : String)
      (hpassword : ∀ c ∈ password.toList, Ascii.isAlphanumeric c = true) =>
    parse_of_scheme (significant_addressWith hscheme huser hpassword rest) hscheme hempty huser
  generalize Text.Ascii.lower (String.ofList scheme.toList) = own at hparse
  by_cases hclass : SchemeClass.of own = .file
  · refine .inl ⟨.invalidDomain, fun password hpassword hne => ?_⟩
    rw [hparse password hpassword, if_pos hclass]
    exact parseFile_credentials _ huser hpassword (by simpa using hne)
  · cases hlocate : locate own ((keptEnd rest.toList).drop
      (passwordEnd own (keptEnd rest.toList)).length) with
    | error e =>
        refine .inl ⟨e, fun password hpassword hne => ?_⟩
        rw [hparse password hpassword, if_neg hclass,
          parseAfterSlashes_credentials huser hpassword (by simpa using hne), hlocate]
        rfl
    | ok x =>
        obtain ⟨host, port, after⟩ := x
        refine .inr ⟨own, percentEncode EncodeSet.userinfo user.toList, host, port,
          passwordEnd own (keptEnd rest.toList), after, isEmpty_of_locate hlocate, ?_,
          fun password hpassword hne => ?_⟩
        · rintro rfl
          exact hclass (by decide)
        · rw [hparse password hpassword, if_neg hclass,
            parseAfterSlashes_credentials huser hpassword (by simpa using hne), hlocate]
          rfl

end Url

end RepoCatalog
