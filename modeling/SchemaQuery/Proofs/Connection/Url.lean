import Mathlib.Data.List.Basic
import SchemaQuery.Connection.Url
import SchemaQuery.Proofs.Except
import SchemaQuery.Proofs.Number.Reader
import SchemaQuery.Proofs.Text.Cut

/-! Connection URLs by their parts.  What is read from a URL, and the URL with its secrets hidden,
are told by the same parts, so that hiding the secrets and reading the settings agree on what the
password is. -/

namespace SchemaQuery.Connection

open Text

inductive Scheme
  | mysql
  | mariadb

def Scheme.chars : Scheme → List Char
  | .mysql => "mysql".toList
  | .mariadb => "mariadb".toList

theorem Scheme.not_mem_chars {c : Char} (h : c = ':' ∨ c = '?') (scheme : Scheme) :
    c ∉ scheme.chars := by
  rcases h with rfl | rfl <;> cases scheme <;> decide

namespace Settings

theorem halves_marked {mark : Char} {front : List Char} (h : mark ∉ front)
    (rest : Option (List Char)) :
    halves mark (front ++ marked mark rest) = (front, rest.getD []) := by
  rw [halves, cutFirst_marked h]
  cases rest <;> simp [marked]

theorem afterScheme?_eq_some_iff {url rest : List Char} :
    afterScheme? url = some rest ↔
      ∃ scheme : Scheme, url = scheme.chars ++ (':' :: ['/', '/'] ++ rest) := by
  rw [afterScheme?, Option.or_eq_some_iff, isPrefixOf?_eq_some_iff, isPrefixOf?_eq_some_iff]
  constructor
  · rintro (rfl | ⟨-, rfl⟩)
    · exact ⟨.mysql, rfl⟩
    · exact ⟨.mariadb, rfl⟩
  · rintro ⟨_ | _, rfl⟩
    · exact .inl rfl
    · exact .inr ⟨rfl, rfl⟩

end Settings

/-- The parts of a connection URL.  No part has a mark at which it would end sooner. -/
structure UrlParts where
  scheme : Scheme
  user : List Char
  password : Option (List Char)
  address : List Char
  database : List Char
  query : Option (List Char)
  user_ne_nil : user ≠ []
  user_marks : user.Disjoint [':', '/', '?']
  password_marks : ∀ text ∈ password, text.Disjoint ['/', '?']
  address_marks : address.Disjoint ['@', '/', '?']
  database_ne_nil : database ≠ []
  database_marks : '?' ∉ database

namespace UrlParts

variable (parts : UrlParts)

def credentials : List Char := parts.user ++ marked ':' parts.password

def authority : List Char := parts.credentials ++ '@' :: parts.address

def location : List Char := parts.authority ++ '/' :: parts.database

def chars : List Char :=
  parts.scheme.chars ++ (':' :: ['/', '/'] ++ (parts.location ++ marked '?' parts.query))

/-- The settings without what the address and the parameters say. -/
def plain : Settings :=
  { user := String.ofList parts.user
    password := parts.password.map String.ofList
    database := String.ofList parts.database }

def settings : Except UrlFault Settings :=
  (parts.plain.withAddress parts.address).map
    ((cutAll '&' (parts.query.getD [])).foldl Settings.withParameter)

/-! ### Where the parts end -/

theorem credentials_marks : parts.credentials.Disjoint ['/', '?'] := by
  have huser := parts.user_marks
  have hpassword := parts.password_marks
  cases hp : parts.password with
  | none => simp_all [credentials, marked]
  | some text => simp_all [credentials, marked]

theorem authority_marks : parts.authority.Disjoint ['/', '?'] := by
  have hcredentials := parts.credentials_marks
  have haddress := parts.address_marks
  simp_all [authority]

theorem location_marks : '?' ∉ parts.location := by
  have hauthority := parts.authority_marks
  have hdatabase := parts.database_marks
  simp_all [location]

theorem colon_not_mem_user : ':' ∉ parts.user := fun h => parts.user_marks h (by simp)

theorem cutFirst_credentials :
    cutFirst ':' parts.credentials = parts.password.map (parts.user, ·) :=
  cutFirst_marked parts.colon_not_mem_user _

theorem cutLast_authority : cutLast '@' parts.authority = some (parts.credentials, parts.address) :=
  cutLast_append fun h => parts.address_marks h (by simp)

theorem cutFirst_location : cutFirst '/' parts.location = some (parts.authority, parts.database) :=
  cutFirst_eq_some_iff.mpr ⟨rfl, fun h => parts.authority_marks h (by simp)⟩

theorem afterScheme?_chars :
    Settings.afterScheme? parts.chars = some (parts.location ++ marked '?' parts.query) :=
  Settings.afterScheme?_eq_some_iff.mpr ⟨parts.scheme, rfl⟩

theorem halves_credentials :
    Settings.halves ':' parts.credentials = (parts.user, parts.password.getD []) :=
  Settings.halves_marked parts.colon_not_mem_user _

/-- A URL is read part by part. -/
theorem ofUrl_chars : Settings.ofUrl (String.ofList parts.chars) = parts.settings := by
  have hplain : parts.plain = {
      user := String.ofList parts.user
      password := (cutFirst ':' parts.credentials).map fun cut => String.ofList cut.2
      database := String.ofList parts.database } := by
    rw [cutFirst_credentials, Option.map_map]
    rfl
  have huser := List.isEmpty_eq_false_iff.mpr parts.user_ne_nil
  have hdatabase := List.isEmpty_eq_false_iff.mpr parts.database_ne_nil
  rw [Settings.ofUrl, String.toList_ofList, afterScheme?_chars]
  simp only [Option.elim_some, ok_bind, Settings.halves_marked parts.location_marks,
    cutFirst_location, cutLast_authority, halves_credentials, huser, hdatabase, Bool.false_eq_true,
    if_false, ← hplain]
  rfl

/-- A URL that is accepted has parts. -/
theorem exists_chars {url : String} {settings : Settings} (h : Settings.ofUrl url = .ok settings) :
    ∃ parts : UrlParts, url = String.ofList parts.chars := by
  rw [Settings.ofUrl, bind_eq_ok_iff] at h
  obtain ⟨rest, hrest, h⟩ := h
  obtain ⟨scheme, hurl⟩ := Settings.afterScheme?_eq_some_iff.mp (elim_eq_ok_iff.mp hrest)
  obtain ⟨location, query, rfl, hlocation⟩ := exists_marked '?' rest
  rw [Settings.halves_marked hlocation, bind_eq_ok_iff] at h
  obtain ⟨⟨authority, database⟩, hcut, h⟩ := h
  obtain ⟨rfl, hauthority⟩ := cutFirst_eq_some_iff.mp (elim_eq_ok_iff.mp hcut)
  dsimp only at h
  split_ifs at h with hdatabase
  · cases h
  rw [bind_eq_ok_iff] at h
  obtain ⟨⟨credentials, address⟩, hlast, h⟩ := h
  obtain ⟨rfl, haddress⟩ := cutLast_eq_some_iff.mp (elim_eq_ok_iff.mp hlast)
  obtain ⟨user, password, rfl, huser⟩ := exists_marked ':' credentials
  dsimp only at h
  rw [Settings.halves_marked huser] at h
  split_ifs at h with hempty
  · cases h
  have hpassword : ∀ text ∈ password, text.Disjoint ['/', '?'] := by
    rintro text rfl
    simp_all [marked]
  refine ⟨⟨scheme, user, password, address, database, query, by simpa using hempty, ?_, hpassword,
    ?_, by simpa using hdatabase, ?_⟩, ?_⟩
  · simp_all
  · simp_all
  · simp_all
  · rw [← String.ofList_toList (s := url), hurl]
    rfl

end UrlParts

/-! ### Hidden secrets -/

theorem maskParameter_append {name : List Char} (h : '=' ∉ name) (value : Option (List Char)) :
    maskParameter (name ++ marked '=' value) =
      name ++ marked '=' (if isSecretName name then value.map fun _ => mask else value) := by
  rw [maskParameter, cutFirst_marked h]
  cases value with
  | none => simp
  | some value => by_cases hname : isSecretName name <;> simp [hname, marked]

theorem maskParameter_maskParameter (parameter : List Char) :
    maskParameter (maskParameter parameter) = maskParameter parameter := by
  obtain ⟨name, value, rfl, hname⟩ := exists_marked '=' parameter
  rw [maskParameter_append hname, maskParameter_append hname]
  by_cases hsecret : isSecretName name <;> simp [hsecret, Function.comp_def]

theorem ampersand_not_mem_maskParameter {parameter : List Char} (h : '&' ∉ parameter) :
    '&' ∉ maskParameter parameter := by
  obtain ⟨name, value, rfl, hname⟩ := exists_marked '=' parameter
  rw [maskParameter_append hname]
  cases value with
  | none => simpa using h
  | some value => by_cases hsecret : isSecretName name <;> simp_all [marked, mask]

/-- The parameters behind the question mark, with the secret ones hidden. -/
def maskQuery (query : List Char) : List Char :=
  List.intercalate ['&'] ((cutAll '&' query).map maskParameter)

theorem cutAll_maskQuery (query : List Char) :
    cutAll '&' (maskQuery query) = (cutAll '&' query).map maskParameter := by
  refine cutAll_intercalate (by simp [cutAll_ne_nil]) ?_
  rw [List.forall_mem_map]
  exact fun parameter hmem => ampersand_not_mem_maskParameter (not_mem_of_mem_cutAll parameter hmem)

theorem maskQuery_maskQuery (query : List Char) :
    maskQuery (maskQuery query) = maskQuery query := by
  rw [maskQuery, cutAll_maskQuery, List.map_map, Function.comp_def]
  simp only [maskParameter_maskParameter]
  rfl

theorem maskCredentials_append {user : List Char} (h : ':' ∉ user) (password : Option (List Char)) :
    maskCredentials (user ++ marked ':' password) =
      user ++ marked ':' (password.map fun _ => mask) := by
  rw [maskCredentials, cutFirst_marked h]
  cases password <;> simp [marked]

theorem hidden_marks {α : Type} (secret : Option α) :
    ∀ text ∈ secret.map fun _ => mask, text.Disjoint ['/', '?'] := by
  cases secret <;> simp [mask]

theorem maskParameters_append {location : List Char} (h : '?' ∉ location)
    (query : Option (List Char)) :
    maskParameters (location ++ marked '?' query) =
      location ++ marked '?' (query.map maskQuery) := by
  rw [maskParameters, cutFirst_marked h]
  cases query <;> simp [marked, maskQuery]

namespace UrlParts

variable (parts : UrlParts)

/-- The parts with the password and the secret parameters hidden. -/
def masked : UrlParts :=
  { parts with
    password := parts.password.map fun _ => mask
    query := parts.query.map maskQuery
    password_marks := hidden_marks parts.password }

theorem masked_masked : parts.masked.masked = parts.masked := by
  simp [masked, Function.comp_def, maskQuery_maskQuery]

theorem not_endsAuthority : ∀ c ∈ parts.authority, (!endsAuthority c) = true := by
  have hmarks := parts.authority_marks
  intro c hc
  have hslash : c ≠ '/' := fun h => hmarks (h ▸ hc) (by simp)
  have hquestion : c ≠ '?' := fun h => hmarks (h ▸ hc) (by simp)
  simp [endsAuthority, hslash, hquestion]

theorem maskAuthority_authority : maskAuthority parts.authority = parts.masked.authority := by
  rw [maskAuthority, cutLast_authority]
  dsimp only
  rw [credentials, maskCredentials_append parts.colon_not_mem_user]
  rfl

theorem maskPassword_chars : maskPassword parts.chars =
    parts.scheme.chars ++
      (':' :: ['/', '/'] ++ (parts.masked.location ++ marked '?' parts.query)) := by
  have hlocation : parts.location ++ marked '?' parts.query =
      parts.authority ++ '/' :: (parts.database ++ marked '?' parts.query) := by
    simp [location]
  have hslash : (!endsAuthority '/') = false := rfl
  rw [maskPassword, chars, cutAt_append (Scheme.not_mem_chars (.inl rfl) _), hlocation]
  dsimp only
  rw [List.takeWhile_append_of_pos parts.not_endsAuthority,
    List.dropWhile_append_of_pos parts.not_endsAuthority, List.takeWhile_cons_of_neg
    (by simp [hslash]), List.dropWhile_cons_of_neg (by simp [hslash]), List.append_nil,
    maskAuthority_authority]
  simp [location, masked]

/-- Hiding the secrets of a URL hides those of its parts. -/
theorem redactUrl_chars :
    redactUrl (String.ofList parts.chars) = String.ofList parts.masked.chars := by
  have hfront : '?' ∉ parts.scheme.chars ++ (':' :: ['/', '/'] ++ parts.masked.location) := by
    simp [parts.masked.location_marks, Scheme.not_mem_chars]
  rw [redactUrl, String.toList_ofList, maskPassword_chars, ← List.append_assoc, ← List.append_assoc,
    maskParameters_append (by simpa using hfront), List.append_assoc, List.append_assoc]
  rfl

end UrlParts

namespace Settings

theorem withAddress_masked (settings : Settings) (address : List Char) :
    settings.masked.withAddress address = (settings.withAddress address).map masked := by
  unfold withAddress
  split
  · split <;> rfl
  · split <;> rfl

theorem withParameter_masked (settings : Settings) (parameter : List Char) :
    settings.masked.withParameter (maskParameter parameter) =
      (settings.withParameter parameter).masked := by
  obtain ⟨name, value, rfl, hname⟩ := exists_marked '=' parameter
  rw [maskParameter_append hname, withParameter, withParameter, cutFirst_marked hname,
    cutFirst_marked hname]
  cases value with
  | none => simp
  | some value =>
    by_cases hcharset : name = "charset".toList
    · have hopen : isSecretName name = false := by rw [hcharset]; decide +kernel
      simp only [hopen, Bool.false_eq_true, if_false, Option.map_some, if_pos hcharset]
      rfl
    · by_cases hpassword : name = "password".toList
      · have hsecret : isSecretName name = true := by rw [hpassword]; decide +kernel
        simp only [hsecret, if_true, Option.map_some, if_neg hcharset, if_pos hpassword]
        rfl
      · by_cases hsecret : isSecretName name <;>
          simp only [hsecret, if_true, Bool.false_eq_true, if_false, Option.map_some,
            if_neg hcharset, if_neg hpassword]

end Settings

theorem UrlParts.settings_masked (parts : UrlParts) :
    parts.masked.settings = parts.settings.map Settings.masked := by
  have hplain : parts.masked.plain = parts.plain.masked := by
    simp only [plain, masked, Settings.masked, Option.map_map]
    rfl
  have hquery : cutAll '&' (parts.masked.query.getD []) =
      (cutAll '&' (parts.query.getD [])).map maskParameter := by
    change cutAll '&' ((parts.query.map maskQuery).getD []) = _
    cases parts.query with
    | none => rfl
    | some query => exact cutAll_maskQuery query
  rw [settings, hplain, hquery, settings]
  change ((parts.plain.masked.withAddress parts.address).map _) = _
  rw [Settings.withAddress_masked]
  cases parts.plain.withAddress parts.address with
  | error fault => rfl
  | ok found =>
    rw [map_ok, map_ok, map_ok, map_ok, List.foldl_map]
    exact congrArg Except.ok (List.foldl_hom Settings.masked Settings.withParameter_masked)

/-! ### The URL of settings -/

namespace Settings

/-- Whether settings can be told by a URL: nothing in them would end too soon. -/
structure FitsUrl (settings : Settings) : Prop where
  user_ne_nil : settings.user.toList ≠ []
  user_marks : settings.user.toList.Disjoint [':', '/', '?']
  host_marks : settings.host.toList.Disjoint ['@', '/', '?']
  database_ne_nil : settings.database.toList ≠ []
  database_marks : '?' ∉ settings.database.toList

theorem FitsUrl.withParameter {settings : Settings} (h : settings.FitsUrl) (parameter : List Char) :
    (settings.withParameter parameter).FitsUrl := by
  unfold Settings.withParameter
  split
  · split_ifs
    · exact ⟨h.1, h.2, h.3, h.4, h.5⟩
    · exact ⟨h.1, h.2, h.3, h.4, h.5⟩
    · exact h
  · exact h

theorem FitsUrl.foldl_withParameter {settings : Settings} (h : settings.FitsUrl)
    (parameters : List (List Char)) :
    (parameters.foldl Settings.withParameter settings).FitsUrl := by
  induction parameters generalizing settings with
  | nil => exact h
  | cons parameter rest ih => exact ih (h.withParameter parameter)

theorem FitsUrl.withAddress {settings result : Settings} (h : settings.FitsUrl)
    {address : List Char} (hmarks : address.Disjoint ['@', '/', '?'])
    (hresult : settings.withAddress address = .ok result) : result.FitsUrl := by
  unfold Settings.withAddress at hresult
  split at hresult
  next host port hcut =>
    obtain ⟨rfl, -⟩ := cutLast_eq_some_iff.mp hcut
    split at hresult
    · cases hresult
      exact ⟨h.1, h.2, by simp_all, h.4, h.5⟩
    · cases hresult
  next =>
    cases hresult
    split
    · exact h
    · exact ⟨h.1, h.2, by simpa using hmarks, h.4, h.5⟩

theorem fitsUrl_of_ofUrl {url : String} {settings : Settings} (h : ofUrl url = .ok settings) :
    settings.FitsUrl := by
  obtain ⟨parts, rfl⟩ := UrlParts.exists_chars h
  rw [UrlParts.ofUrl_chars] at h
  obtain ⟨found, hfound, rfl⟩ := map_eq_ok_iff.mp h
  have hplain : parts.plain.FitsUrl :=
    ⟨by simpa [UrlParts.plain] using parts.user_ne_nil,
      by simpa [UrlParts.plain] using parts.user_marks, by simp [UrlParts.plain],
      by simpa [UrlParts.plain] using parts.database_ne_nil,
      by simpa [UrlParts.plain] using parts.database_marks⟩
  exact (hplain.withAddress parts.address_marks hfound).foldl_withParameter _

/-- The parts of the URL that is shown for settings. -/
def shownParts (settings : Settings) (h : settings.FitsUrl) : UrlParts where
  scheme := .mysql
  user := settings.user.toList
  password := settings.password.map fun _ => mask
  address := settings.host.toList ++ ':' :: Nat.toDigits 10 settings.port.toNat
  database := settings.database.toList
  query := none
  user_ne_nil := h.user_ne_nil
  user_marks := h.user_marks
  password_marks := hidden_marks settings.password
  address_marks := by
    have hhost := h.host_marks
    have hdigits (c : Char) (hc : c.isDigit = false) :=
      Number.not_mem_toDigits hc settings.port.toNat
    have hat := hdigits '@' rfl
    have hslash := hdigits '/' rfl
    have hquestion := hdigits '?' rfl
    simp_all
  database_ne_nil := h.database_ne_nil
  database_marks := h.database_marks

theorem redactedUrl_eq {settings : Settings} (h : settings.FitsUrl) :
    settings.redactedUrl = String.ofList (settings.shownParts h).chars := by
  have hcredentials :
      (settings.user ++ settings.masked.password.elim "" fun stars => ":" ++ stars).toList =
        (settings.shownParts h).credentials := by
    rw [String.toList_append]
    cases hpassword : settings.password with
    | none => simp only [masked, hpassword, UrlParts.credentials, shownParts]; rfl
    | some password =>
      have hstars : (":" ++ "***").toList = ':' :: mask := by decide +kernel
      simp only [masked, hpassword, UrlParts.credentials, shownParts, Option.map_some,
        Option.elim_some, hstars]
      rfl
  have hport : (toString settings.port.toNat).toList = Nat.toDigits 10 settings.port.toNat := by
    simp
  have hlead : "mysql://".toList = Scheme.mysql.chars ++ [':', '/', '/'] := rfl
  have hat : "@".toList = ['@'] := rfl
  have hcolon : ":".toList = [':'] := rfl
  have hslash : "/".toList = ['/'] := rfl
  apply String.toList_injective
  change ("mysql://" ++ _ ++ "@" ++ _ ++ ":" ++ _ ++ "/" ++ _ : String).toList = _
  simp only [String.toList_append, hcredentials, hport, hlead, hat, hcolon, hslash,
    String.toList_ofList, UrlParts.chars, UrlParts.location, UrlParts.authority, List.append_assoc,
    List.cons_append, List.nil_append]
  simp [shownParts, marked]

theorem settings_shownParts {settings : Settings} (h : settings.FitsUrl) :
    (settings.shownParts h).settings = .ok { settings.masked with charset := "utf8mb4" } := by
  have hcut : cutLast ':' (settings.shownParts h).address =
      some (settings.host.toList, Nat.toDigits 10 settings.port.toNat) :=
    cutLast_append (Number.not_mem_toDigits rfl _)
  rw [UrlParts.settings, withAddress, hcut]
  simp only [Number.readUInt16?_toDigits, String.ofList_toList, map_ok, shownParts, UrlParts.plain,
    Option.map_map]
  rfl

/-- The settings that a URL tells, the URL with its secrets hidden and the URL that is shown for the
settings agree on what the password is. -/
theorem ofUrl_redactUrl {url : String} {settings : Settings} (h : ofUrl url = .ok settings) :
    ofUrl (redactUrl url) = .ok settings.masked ∧ redactUrl (redactUrl url) = redactUrl url ∧
      ofUrl settings.redactedUrl = .ok { settings.masked with charset := "utf8mb4" } := by
  have hfits := fitsUrl_of_ofUrl h
  obtain ⟨parts, rfl⟩ := UrlParts.exists_chars h
  rw [UrlParts.ofUrl_chars] at h
  refine ⟨?_, ?_, ?_⟩
  · rw [UrlParts.redactUrl_chars, UrlParts.ofUrl_chars, UrlParts.settings_masked, h]
    rfl
  · rw [UrlParts.redactUrl_chars, UrlParts.redactUrl_chars, UrlParts.masked_masked]
  · rw [redactedUrl_eq hfits, UrlParts.ofUrl_chars, settings_shownParts hfits]

/-- A URL whose password has marks, and stands in front of the host and among the parameters. -/
theorem ofUrl_redactUrl_marks :
    let url := "mysql://a@b:p@ss:w@::1:+03307/my/shop?charset=latin1&Token=t&password=x=y&&flag"
    let settings : Settings :=
      { host := "::1", port := 3307, user := "a@b", password := some "x=y", database := "my/shop",
        charset := "latin1" }
    ofUrl url = .ok settings ∧
      redactUrl url =
        "mysql://a@b:***@::1:+03307/my/shop?charset=latin1&Token=***&password=***&&flag" ∧
      settings.redactedUrl = "mysql://a@b:***@::1:3307/my/shop" ∧
      ofUrl (redactUrl url) = .ok settings.masked ∧ redactUrl (redactUrl url) = redactUrl url ∧
      ofUrl settings.redactedUrl = .ok { settings.masked with charset := "utf8mb4" } := by
  intro url settings
  have hread : ofUrl url = .ok settings := by decide +kernel
  exact ⟨hread, by decide +kernel, by decide +kernel, ofUrl_redactUrl hread⟩

end Settings

end SchemaQuery.Connection
