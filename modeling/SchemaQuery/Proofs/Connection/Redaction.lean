import Mathlib.Data.List.TakeWhile
import SchemaQuery.Proofs.Connection.Url

/-! What a redacted URL says of the password in front of its host.  A password without `/` and `?`
leaves no trace, wherever the URL goes on and whether or not it is accepted; one with such a mark
ends the authority too soon, so that nothing, or only a part of it, is hidden. -/

namespace SchemaQuery.Connection

open Text

/-- The URL of a user with a password; `tail` is what follows the `@` behind the password. -/
def loginUrl (user password tail : List Char) : String :=
  String.ofList (Scheme.mysql.chars ++
    (':' :: ['/', '/'] ++ ((user ++ ':' :: password) ++ '@' :: tail)))

/-- What is said of a text that is no connection URL. -/
def Settings.rejection? (url : String) : Option String :=
  match ofUrl url with
  | .ok _ => none
  | .error fault => some (fault.message url)

variable {user password other tail rest : List Char}

/-! ### The part behind the scheme -/

/-- The part of a URL behind the scheme, with the password of its authority hidden. -/
def maskLogin (rest : List Char) : List Char :=
  maskAuthority (rest.takeWhile fun c => !endsAuthority c) ++
    rest.dropWhile fun c => !endsAuthority c

theorem maskPassword_scheme (scheme : Scheme) (rest : List Char) :
    maskPassword (scheme.chars ++ (':' :: ['/', '/'] ++ rest)) =
      scheme.chars ++ (':' :: ['/', '/'] ++ maskLogin rest) := by
  rw [maskPassword, cutAt_append (Scheme.not_mem_chars (.inl rfl) _)]
  simp [maskLogin]

theorem toList_redactUrl_loginUrl : (redactUrl (loginUrl user password tail)).toList =
    maskParameters (Scheme.mysql.chars ++
      (':' :: ['/', '/'] ++ maskLogin ((user ++ ':' :: password) ++ '@' :: tail))) := by
  rw [redactUrl, loginUrl, String.toList_ofList, String.toList_ofList, maskPassword_scheme]

theorem not_endsAuthority_of_disjoint {text : List Char} (h : text.Disjoint ['/', '?']) :
    ∀ c ∈ text, (!endsAuthority c) = true := by
  intro c hc
  have hslash : c ≠ '/' := fun heq => h (heq ▸ hc) (by simp)
  have hquestion : c ≠ '?' := fun heq => h (heq ▸ hc) (by simp)
  simp [endsAuthority, hslash, hquestion]

/-! ### Passwords without marks -/

/-- Where the last `@` behind a password stands does not depend on the password. -/
theorem exists_cutLast_append (tail : List Char) : ∃ gone address, ∀ front,
    cutLast '@' (front ++ '@' :: tail) = some (front ++ gone, address) := by
  cases hcut : cutLast '@' tail with
  | none =>
    refine ⟨[], tail, fun front => ?_⟩
    rw [List.append_nil, cutLast_append (cutLast_eq_none_iff.mp hcut)]
  | some cut =>
    obtain ⟨rfl, haddress⟩ := cutLast_eq_some_iff.mp hcut
    refine ⟨'@' :: cut.1, cut.2, fun front => ?_⟩
    have hsplit : front ++ '@' :: (cut.1 ++ '@' :: cut.2) =
        (front ++ '@' :: cut.1) ++ '@' :: cut.2 := by
      simp
    rw [hsplit, cutLast_append haddress]

theorem exists_maskAuthority (huser : ':' ∉ user) (authority : List Char) : ∃ address, ∀ password,
    maskAuthority ((user ++ ':' :: password) ++ '@' :: authority) =
      user ++ ':' :: mask ++ '@' :: address := by
  obtain ⟨gone, address, hcut⟩ := exists_cutLast_append authority
  refine ⟨address, fun password => ?_⟩
  have hcredentials : (user ++ ':' :: password) ++ gone =
      user ++ marked ':' (some (password ++ gone)) := by
    simp [marked]
  rw [maskAuthority, hcut]
  dsimp only
  rw [hcredentials, maskCredentials_append huser]
  rfl

theorem disjoint_login (huser : user.Disjoint [':', '/', '?']) (h : password.Disjoint ['/', '?']) :
    ((user ++ ':' :: password) ++ ['@']).Disjoint ['/', '?'] := by
  simp_all

/-- What stands for a login with a password that has no marks does not depend on the password. -/
theorem exists_maskLogin (huser : user.Disjoint [':', '/', '?']) (tail : List Char) :
    ∃ shown, ∀ password, password.Disjoint ['/', '?'] →
      maskLogin ((user ++ ':' :: password) ++ '@' :: tail) = shown := by
  have hcolon : ':' ∉ user := fun h => huser h (by simp)
  obtain ⟨address, hmasked⟩ :=
    exists_maskAuthority hcolon (tail.takeWhile fun c => !endsAuthority c)
  refine ⟨user ++ ':' :: mask ++ '@' :: address ++ tail.dropWhile fun c => !endsAuthority c,
    fun password h => ?_⟩
  have hplain := not_endsAuthority_of_disjoint (disjoint_login huser h)
  have hsplit : (user ++ ':' :: password) ++ '@' :: tail =
      ((user ++ ':' :: password) ++ ['@']) ++ tail := by
    simp
  rw [maskLogin, hsplit, List.takeWhile_append_of_pos hplain, List.dropWhile_append_of_pos hplain,
    List.append_assoc, List.singleton_append, hmasked]

theorem redactUrl_loginUrl_eq (huser : user.Disjoint [':', '/', '?'])
    (h : password.Disjoint ['/', '?']) (h' : other.Disjoint ['/', '?']) :
    redactUrl (loginUrl user password tail) = redactUrl (loginUrl user other tail) := by
  obtain ⟨shown, hshown⟩ := exists_maskLogin huser tail
  apply String.toList_injective
  rw [toList_redactUrl_loginUrl, toList_redactUrl_loginUrl, hshown password h, hshown other h']

/-! ### What is said of a URL that is not accepted -/

namespace Settings

/-- Whether an address can be read does not depend on the settings that get it. -/
theorem withAddress_fault (settings settings' : Settings) (address : List Char) :
    ((settings.withAddress address).map fun _ => ()) =
      (settings'.withAddress address).map fun _ => () := by
  unfold withAddress
  split
  · split <;> rfl
  · rfl

theorem map_bind_pure (read : Except UrlFault Settings) (next : Settings → Settings) :
    ((read >>= fun settings => pure (next settings)).map fun _ => ()) = read.map fun _ => () := by
  cases read <;> rfl

/-- Whether a URL is accepted, and why not, does not depend on a password that has no marks. -/
theorem exists_fault (huser : user.Disjoint [':', '/', '?']) (tail : List Char) :
    ∃ found : Except UrlFault Unit, ∀ password, password.Disjoint ['/', '?'] →
      ((ofUrl (loginUrl user password tail)).map fun _ => ()) = found := by
  have hcolon : ':' ∉ user := fun h => huser h (by simp)
  obtain ⟨location, query, rfl, hlocation⟩ := exists_marked '?' tail
  obtain ⟨authority, database, rfl, hauthority⟩ := exists_marked '/' location
  obtain ⟨gone, address, hcut⟩ := exists_cutLast_append authority
  have hrest : ∀ password,
      afterScheme?
          (loginUrl user password (authority ++ marked '/' database ++ marked '?' query)).toList =
        some (((user ++ ':' :: password) ++ '@' :: authority ++ marked '/' database) ++
          marked '?' query) := by
    intro password
    rw [loginUrl, String.toList_ofList]
    exact afterScheme?_eq_some_iff.mpr ⟨.mysql, by simp⟩
  have hplain : ∀ password, password.Disjoint ['/', '?'] →
      '?' ∉ (user ++ ':' :: password) ++ '@' :: authority ++ marked '/' database ∧
        '/' ∉ (user ++ ':' :: password) ++ '@' :: authority := by
    intro password h
    simp_all
  have hhalves : ∀ password, halves ':' ((user ++ ':' :: password) ++ gone) =
      (user, password ++ gone) := by
    intro password
    have hmarked : (user ++ ':' :: password) ++ gone =
        user ++ marked ':' (some (password ++ gone)) := by
      simp [marked]
    rw [hmarked, halves_marked hcolon]
    rfl
  cases database with
  | none =>
    refine ⟨.error .noDatabase, fun password h => ?_⟩
    rw [ofUrl, hrest]
    simp only [Option.elim_some, ok_bind, halves_marked (hplain password h).1,
      cutFirst_marked (hplain password h).2, Option.map_none, Option.elim_none]
    rfl
  | some database =>
    refine ⟨if database.isEmpty then .error .noDatabase else if user.isEmpty then .error .noUser
      else (({ user := "", database := "" } : Settings).withAddress address).map fun _ => (),
      fun password h => ?_⟩
    rw [ofUrl, hrest]
    simp only [Option.elim_some, ok_bind, halves_marked (hplain password h).1,
      cutFirst_marked (hplain password h).2, Option.map_some, hcut, hhalves]
    split
    · rfl
    · split
      · rfl
      · rw [map_bind_pure]
        exact withAddress_fault _ _ address

theorem rejection?_congr {url url' : String}
    (hfault : ((ofUrl url).map fun _ => ()) = (ofUrl url').map fun _ => ())
    (hshown : redactUrl url = redactUrl url') : rejection? url = rejection? url' := by
  unfold rejection?
  generalize ofUrl url = read at hfault ⊢
  generalize ofUrl url' = read' at hfault ⊢
  cases read with
  | ok settings =>
    cases read' with
    | ok settings' => rfl
    | error fault' => cases hfault
  | error fault =>
    cases read' with
    | ok settings' => cases hfault
    | error fault' =>
      rw [map_error, map_error, Except.error.injEq] at hfault
      rw [hfault]
      exact congrArg (fun shown =>
        some ("invalid connection url: " ++ (fault'.text ++ ": " ++ shown))) hshown

end Settings

/-! ### Passwords with marks -/

theorem endsAuthority_iff {c : Char} : endsAuthority c = true ↔ c = '/' ∨ c = '?' := by
  simp [endsAuthority]

theorem not_mem_maskAuthority {c : Char} {authority : List Char} (hc : endsAuthority c = true)
    (h : c ∉ authority) : c ∉ maskAuthority authority := by
  rw [maskAuthority]
  cases hcut : cutLast '@' authority with
  | none => exact h
  | some cut =>
    obtain ⟨rfl, -⟩ := cutLast_eq_some_iff.mp hcut
    obtain ⟨user, password, hcredentials, huser⟩ := exists_marked ':' cut.1
    dsimp only
    rw [hcredentials] at h ⊢
    rw [maskCredentials_append huser]
    obtain rfl | rfl := endsAuthority_iff.mp hc <;> cases password <;> simp_all [marked, mask]

/-- Hiding a password concerns no character that ends an authority. -/
theorem count_maskLogin {c : Char} (hc : endsAuthority c = true) (rest : List Char) :
    (maskLogin rest).count c = rest.count c := by
  have hauthority : c ∉ rest.takeWhile fun c => !endsAuthority c := by
    intro hmem
    have hends := List.mem_takeWhile_imp hmem
    simp [hc] at hends
  have hmasked := not_mem_maskAuthority hc hauthority
  rw [maskLogin, List.count_append, List.count_eq_zero.mpr hmasked]
  conv_rhs => rw [← List.takeWhile_append_dropWhile (p := fun c => !endsAuthority c) (l := rest)]
  rw [List.count_append, List.count_eq_zero.mpr hauthority]

theorem question_mem_maskParameters_iff {url : List Char} :
    '?' ∈ maskParameters url ↔ '?' ∈ url := by
  obtain ⟨location, query, rfl, hlocation⟩ := exists_marked '?' url
  rw [maskParameters_append hlocation]
  cases query <;> simp [marked]

theorem maskParameters_of_not_mem {url : List Char} (h : '?' ∉ url) : maskParameters url = url := by
  rw [maskParameters, cutFirst_eq_none_iff.mpr h]

/-- A password with a mark is not shown as one without, unless the parameters behind it are hidden
too. -/
theorem redactUrl_loginUrl_ne (hmarks : ¬password.Disjoint ['/', '?'])
    (h : other.Disjoint ['/', '?']) (htail : '?' ∉ tail) (huser : user.Disjoint [':', '/', '?']) :
    redactUrl (loginUrl user password tail) ≠ redactUrl (loginUrl user other tail) := by
  intro heq
  have hshown := congrArg String.toList heq
  rw [toList_redactUrl_loginUrl, toList_redactUrl_loginUrl] at hshown
  have hquestion : '?' ∉ maskLogin ((user ++ ':' :: other) ++ '@' :: tail) := by
    rw [← List.count_eq_zero, count_maskLogin rfl, List.count_eq_zero]
    simp_all
  have hplain : '?' ∉ Scheme.mysql.chars ++
      (':' :: ['/', '/'] ++ maskLogin ((user ++ ':' :: other) ++ '@' :: tail)) := by
    simp_all [Scheme.not_mem_chars]
  have hplain' : '?' ∉ Scheme.mysql.chars ++
      (':' :: ['/', '/'] ++ maskLogin ((user ++ ':' :: password) ++ '@' :: tail)) := by
    rwa [← question_mem_maskParameters_iff, hshown, question_mem_maskParameters_iff]
  rw [maskParameters_of_not_mem hplain, maskParameters_of_not_mem hplain'] at hshown
  have hlogin : maskLogin ((user ++ ':' :: password) ++ '@' :: tail) =
      maskLogin ((user ++ ':' :: other) ++ '@' :: tail) :=
    List.append_cancel_left (List.append_cancel_left hshown)
  have hcount : ∀ c, endsAuthority c = true → password.count c = other.count c := by
    intro c hc
    have hcount := congrArg (List.count c) hlogin
    rw [count_maskLogin hc, count_maskLogin hc] at hcount
    simpa [List.count_append, List.count_cons] using hcount
  have hnone : ∀ c, endsAuthority c = true → c ∉ password := by
    intro c hc
    rw [← List.count_eq_zero, hcount c hc, List.count_eq_zero]
    intro hmem
    have hplain := not_endsAuthority_of_disjoint h c hmem
    simp [hc] at hplain
  refine hmarks fun c hmem hmark => hnone c ?_ hmem
  simpa [endsAuthority_iff] using hmark

/-- A password without `/` and `?` leaves no trace in the redacted URL, and none in what is said
when the URL is not accepted.  Other passwords do: where no parameters follow, the redacted URL
tells them from those without such a mark. -/
theorem redactUrl_loginUrl {user : List Char} (huser : user.Disjoint [':', '/', '?']) :
    (∀ password other tail, password.Disjoint ['/', '?'] → other.Disjoint ['/', '?'] →
      redactUrl (loginUrl user password tail) = redactUrl (loginUrl user other tail) ∧
        Settings.rejection? (loginUrl user password tail) =
          Settings.rejection? (loginUrl user other tail)) ∧
    ∀ password other tail, other.Disjoint ['/', '?'] → '?' ∉ tail →
      (redactUrl (loginUrl user password tail) = redactUrl (loginUrl user other tail) ↔
        password.Disjoint ['/', '?']) := by
  constructor
  · intro password other tail h h'
    obtain ⟨found, hfound⟩ := Settings.exists_fault huser tail
    have hshown : redactUrl (loginUrl user password tail) = redactUrl (loginUrl user other tail) :=
      redactUrl_loginUrl_eq huser h h'
    exact ⟨hshown,
      Settings.rejection?_congr ((hfound password h).trans (hfound other h').symm) hshown⟩
  · intro password other tail h' htail
    refine ⟨fun heq => ?_, fun h => redactUrl_loginUrl_eq huser h h'⟩
    by_contra hmarks
    exact redactUrl_loginUrl_ne hmarks h' htail huser heq

/-- Two passwords with the marks of a login, in a URL with a bad port. -/
theorem redactUrl_loginUrl_badPort :
    let url password := loginUrl "app".toList password "db@x:port/shop?token=t".toList
    (redactUrl (url "p:q@r".toList) = redactUrl (url "secret".toList) ∧
      Settings.rejection? (url "p:q@r".toList) = Settings.rejection? (url "secret".toList)) ∧
    Settings.rejection? (url "secret".toList) =
      some "invalid connection url: invalid port: mysql://app:***@x:port/shop?token=***" ∧
    (redactUrl (loginUrl "app".toList "p/q@r".toList "db".toList) =
        redactUrl (loginUrl "app".toList "secret".toList "db".toList) ↔
      "p/q@r".toList.Disjoint ['/', '?']) := by
  intro url
  have huser : "app".toList.Disjoint [':', '/', '?'] := by simp
  have hpassword : "p:q@r".toList.Disjoint ['/', '?'] := by simp
  have hsecret : "secret".toList.Disjoint ['/', '?'] := by simp
  obtain ⟨hhidden, hshown⟩ := redactUrl_loginUrl huser
  exact ⟨hhidden _ _ _ hpassword hsecret, by decide +kernel, hshown _ _ _ hsecret (by simp)⟩

/-- A password with a slash is shown as it is, also in what is said when the URL is not accepted. -/
theorem password_shown_by_redactUrl :
    let url password := loginUrl "app".toList password "db/shop".toList
    redactUrl (url "secret".toList) = "mysql://app:***@db/shop" ∧
      redactUrl (url "pa/ss".toList) = "mysql://app:pa/ss@db/shop" ∧
      Settings.rejection? (url "pa/ss".toList) =
        some "invalid connection url: missing user: mysql://app:pa/ss@db/shop" := by
  decide +kernel

end SchemaQuery.Connection
