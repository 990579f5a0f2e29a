import Mathlib.Data.List.Perm.Basic
import Mathlib.Logic.Relation
import SchemaQuery.Method
import SchemaQuery.Proofs.Text.Words

/-! Methods as sets of keywords.  Which method a text names, and whether it names one, is settled by
the keywords among its words: neither their order and number, nor the case of their letters, nor the
blanks and the other words between them matter. -/

namespace SchemaQuery.Method

open Text

variable {s t : String} {has has' : String → Bool}

/-- The words that count in a method. -/
def keywords : List String :=
  ["show", "tables", "describe", "truncate", "rename", "move", "table", "constraint", "drop",
    "column", "add", "create", "alter", "change", "modify", "temporary", "if", "exists", "index",
    "unique", "primary", "foreign", "distinct", "count", "select", "insert", "update", "delete"]

/-! ### What keywords decide -/

/-- Two results of reading a method, from two texts: the same method, or the same fault of the one
text and the other. -/
inductive Agree (s t : String) : Except MethodFault Method → Except MethodFault Method → Prop
  | method (method : Method) : Agree s t (.ok method) (.ok method)
  | unknown : Agree s t (.error (.unknown s)) (.error (.unknown t))
  | severalConstraints : Agree s t (.error (.severalConstraints s)) (.error (.severalConstraints t))

theorem Agree.ite {p : Prop} [Decidable p] {x y x' y' : Except MethodFault Method}
    (hx : Agree s t x x') (hy : Agree s t y y') :
    Agree s t (if p then x else y) (if p then x' else y') := by
  split
  · exact hx
  · exact hy

/-- The text is only named in the fault. -/
theorem agree_ofWords (s t : String) (has : String → Bool) :
    Agree s t (ofWords s has) (ofWords t has) := by
  -- the conditions are the same for both texts, and three of them lead to a choice that may find
  -- nothing
  refine .ite (.method _) <| .ite (.method _) <| .ite (.method _) <| .ite (.method _) <|
    .ite (.method _) <| .ite ?column <| .ite (.method _) <| .ite (.method _) <|
    .ite ?constraint ?row
  case column =>
    cases ofColumnWords? has with
    | none => exact .unknown
    | some method => exact .method method
  case constraint =>
    cases ConstraintKind.all.filter fun kind => has kind.keyword with
    | nil => exact .unknown
    | cons kind more =>
      cases more with
      | nil => exact .method _
      | cons other more => exact .severalConstraints
  case row =>
    cases ofRowWords? has with
    | none => exact .unknown
    | some method => exact .method method

theorem contains_keyword (kind : ConstraintKind) : keywords.contains kind.keyword = true := by
  cases kind <;> decide

theorem ofWords_keywords (text : String) (has : String → Bool) :
    ofWords text (fun word => keywords.contains word && has word) = ofWords text has := by
  simp only [ofWords, ofColumnWords?, ofRowWords?, contains_keyword, Bool.true_and]
  rfl

/-- Which keywords there are settles how a text is read. -/
theorem ofWords_congr {text : String} (h : ∀ word ∈ keywords, has word = has' word) :
    ofWords text has = ofWords text has' := by
  rw [← ofWords_keywords text has, ← ofWords_keywords text has']
  congr 1
  funext word
  cases hword : keywords.contains word with
  | false => rfl
  | true => rw [h word (List.contains_iff_mem.mp hword)]

/-- Whether two texts have the same keywords among their words. -/
def SameKeywords (s t : String) : Prop :=
  ∀ word ∈ keywords, word ∈ words (lower s) ↔ word ∈ words (lower t)

/-- Whether two texts are read as one method, or are both rejected, each by its name and for the
same reason. -/
inductive ReadAlike (s t : String) : Prop
  | method {method : Method} (hs : ofText s = .ok method) (ht : ofText t = .ok method)
  | fault {fault : String → MethodFault} (hfault : fault = .unknown ∨ fault = .severalConstraints)
    (hs : ofText s = .error (.method (fault s))) (ht : ofText t = .error (.method (fault t)))

theorem ReadAlike.of_agree {x y : Except MethodFault Method} (hs : ofText s = x.mapError .method)
    (ht : ofText t = y.mapError .method) (h : Agree s t x y) : ReadAlike s t := by
  cases h with
  | method method => exact .method hs ht
  | unknown => exact .fault (.inl rfl) hs ht
  | severalConstraints => exact .fault (.inr rfl) hs ht

theorem ofText_eq (text : String) : ofText text =
    (ofWords text fun word => (words (lower text)).contains word).mapError .method := rfl

theorem SameKeywords.readAlike (h : SameKeywords s t) : ReadAlike s t := by
  have hhas : ∀ word ∈ keywords, (words (lower s)).contains word =
      (words (lower t)).contains word := by
    intro word hword
    rw [Bool.eq_iff_iff, List.contains_iff_mem, List.contains_iff_mem]
    exact h word hword
  have hagree := agree_ofWords s t fun word => (words (lower s)).contains word
  have ht : ofWords t (fun word => (words (lower s)).contains word) =
      ofWords t fun word => (words (lower t)).contains word := ofWords_congr hhas
  rw [ht] at hagree
  exact .of_agree (ofText_eq s) (ofText_eq t) hagree

/-! ### Changes that keep the keywords -/

/-- One change of a text: other blanks, another order of its words, one of them once more, a word
that is no keyword, or letters in the other case. -/
inductive Change (s t : String) : Prop
  | respace {ws : List String} (hs : Spaced ws s.toList) (ht : Spaced ws t.toList)
  | reorder {ws vs : List String} (h : ws.Perm vs) (hs : Spaced ws s.toList)
    (ht : Spaced vs t.toList)
  | again {before after : List String} {word : String} (h : word ∈ before ++ after)
    (hs : Spaced (before ++ after) s.toList) (ht : Spaced (before ++ word :: after) t.toList)
  | insert {before after : List String} {word : String} (h : lower word ∉ keywords)
    (hs : Spaced (before ++ after) s.toList) (ht : Spaced (before ++ word :: after) t.toList)
  | recase (h : lower s = lower t)

theorem mem_words_lower {ws : List String} {word : String} (h : Spaced ws s.toList) :
    word ∈ words (lower s) ↔ ∃ known ∈ ws, lower known = word := by
  rw [words_lower, words_eq_iff.mpr h, List.mem_map]

/-- No change adds or removes a keyword. -/
theorem Change.sameKeywords (h : Change s t) : SameKeywords s t := by
  intro keyword hkeyword
  cases h with
  | respace hs ht => rw [mem_words_lower hs, mem_words_lower ht]
  | reorder h hs ht => simp only [mem_words_lower hs, mem_words_lower ht, h.mem_iff]
  | @again before after word h hs ht =>
    have hmem (known : String) : known ∈ before ++ word :: after ↔ known ∈ before ++ after := by
      simp only [List.mem_append, List.mem_cons] at h ⊢
      grind
    simp only [mem_words_lower hs, mem_words_lower ht, hmem]
  | @insert before after word h hs ht =>
    have hword : lower word ≠ keyword := fun heq => h (heq ▸ hkeyword)
    have hother (known : String) (hknown : lower known = keyword) :
        known ∈ before ++ word :: after ↔ known ∈ before ++ after := by
      have hne : known ≠ word := fun heq => hword (heq ▸ hknown)
      simp [hne]
    rw [mem_words_lower hs, mem_words_lower ht]
    exact exists_congr fun known => and_congr_left fun hknown => (hother known hknown).symm
  | recase h => rw [h]

theorem sameKeywords_of_changes (h : Relation.ReflTransGen Change s t) : SameKeywords s t := by
  induction h with
  | refl => exact fun _ _ => Iff.rfl
  | tail _ hchange ih => exact fun keyword hkeyword =>
    (ih keyword hkeyword).trans (hchange.sameKeywords keyword hkeyword)

theorem readAlike_of_changes (h : Relation.ReflTransGen Change s t) : ReadAlike s t :=
  (sameKeywords_of_changes h).readAlike

/-! ### No keyword is without effect -/

theorem ReadAlike.toOption (h : ReadAlike s t) : (ofText s).toOption = (ofText t).toOption := by
  cases h with
  | method hs ht => rw [hs, ht]
  | fault _ hs ht =>
    rw [hs, ht]
    rfl

/-- A text that the keyword gives another meaning. -/
def affected (keyword : String) : String :=
  if ["column", "index", "unique", "primary", "foreign", "table"].contains keyword then "add"
  else if ["add", "create", "drop", "alter", "change", "modify"].contains keyword then "column"
  else if keyword = "show" then "tables"
  else if keyword = "tables" then "show"
  else if keyword = "move" then "table"
  else if keyword = "constraint" then "drop"
  else if keyword = "temporary" then "add table"
  else if keyword = "if" then "add table exists"
  else if keyword = "exists" then "add table if"
  else ""

theorem affected_ne : ∀ keyword ∈ keywords,
    (ofText (affected keyword)).toOption ≠
      (ofText (affected keyword ++ " " ++ keyword)).toOption := by
  decide +kernel

theorem exists_not_readAlike {word : String} (h : lower word ∈ keywords) :
    ∃ s, ¬ReadAlike s (s ++ " " ++ word) := by
  refine ⟨affected (lower word), fun hword => affected_ne _ h ?_⟩
  have hcase (s : String) : lower (s ++ " " ++ word) = lower (s ++ " " ++ lower word) := by
    rw [lower_append, lower_append _ (lower word), lower_lower]
  exact hword.toOption.trans (readAlike_of_changes (.single (.recase (hcase _)))).toOption

theorem change_append {word : String} (hword : IsWord word) (h : lower word ∉ keywords)
    (s : String) : Change s (s ++ " " ++ word) := by
  have hs : Spaced (words s) s.toList := words_eq_iff.mp rfl
  have ht : Spaced (words s ++ [word]) (s ++ " " ++ word).toList := by
    have happend := hs.append (c := ' ') (by decide) (spaced_singleton hword)
    simpa using happend
  refine @Change.insert _ _ (words s) [] word h ?_ ht
  rwa [List.append_nil]

/-- A method is read as the set of its keywords.  Any number of changes to its blanks, to the order,
the repetition and the letter case of its words, and by words that are no keywords, leaves the
method that is read, or the reason that none is.  And no word that leaves every method is a
keyword. -/
theorem readAlike_changes :
    (∀ s t : String, Relation.ReflTransGen Change s t → ReadAlike s t) ∧
    ∀ word : String, IsWord word → ((∀ s : String, ReadAlike s (s ++ " " ++ word)) ↔
      lower word ∉ keywords) := by
  refine ⟨fun _ _ => readAlike_of_changes, fun word hword => ⟨fun h hkeyword => ?_, fun h s => ?_⟩⟩
  · obtain ⟨s, hs⟩ := exists_not_readAlike hkeyword
    exact hs (h s)
  · exact readAlike_of_changes (.single (change_append hword h s))

/-- A guarded creation of a temporary table with its words in another order and one of them twice, a
word more, and other blanks; a method that names two constraints, in capitals; and a word that means
nothing. -/
theorem readAlike_changes_creation :
    let creation := "Create Temporary Table If Not Exists"
    let changed := "\tEXISTS  if not\u3000please table create Temporary table "
    Relation.ReflTransGen Change creation changed ∧ ReadAlike creation changed ∧
      ofText changed = .ok (.createTable true true) ∧
      ReadAlike "add foreign index" "ADD FOREIGN INDEX" ∧
      ofText "ADD FOREIGN INDEX" = .error (.method (.severalConstraints "ADD FOREIGN INDEX")) ∧
      IsWord "Key" ∧ lower "Key" ∉ keywords ∧ ∀ s, ReadAlike s (s ++ " " ++ "Key") := by
  intro creation changed
  have hcase : Change creation "create Temporary table if not EXISTS" := .recase (by decide +kernel)
  have horder : Change "create Temporary table if not EXISTS"
      "EXISTS if not create Temporary table" :=
    @Change.reorder _ _ ["create", "Temporary", "table", "if", "not", "EXISTS"]
      ["EXISTS", "if", "not", "create", "Temporary", "table"] (by decide +kernel)
      (words_eq_iff.mp (by decide +kernel)) (words_eq_iff.mp (by decide +kernel))
  have hagain : Change "EXISTS if not create Temporary table"
      "EXISTS if not table create Temporary table" :=
    @Change.again _ _ ["EXISTS", "if", "not"] ["create", "Temporary", "table"] "table"
      (by decide +kernel) (words_eq_iff.mp (by decide +kernel))
      (words_eq_iff.mp (by decide +kernel))
  have hnew : Change "EXISTS if not table create Temporary table" changed :=
    @Change.insert _ _ ["EXISTS", "if", "not"] ["table", "create", "Temporary", "table"] "please"
      (by decide +kernel) (words_eq_iff.mp (by decide +kernel))
        (words_eq_iff.mp (by decide +kernel))
  have hchanges : Relation.ReflTransGen Change creation changed :=
    (((Relation.ReflTransGen.single hcase).tail horder).tail hagain).tail hnew
  have hcapitals : Change "add foreign index" "ADD FOREIGN INDEX" := .recase (by decide +kernel)
  have hletters : "Key".toList.all (fun c => !isBlank c) = true := by decide +kernel
  have hword : IsWord "Key" := ⟨by decide +kernel, by simpa using hletters⟩
  have hkey : lower "Key" ∉ keywords := by decide +kernel
  exact ⟨hchanges, readAlike_changes.1 _ _ hchanges, by decide +kernel,
    readAlike_changes.1 _ _ (.single hcapitals), by decide +kernel, hword, hkey,
    (readAlike_changes.2 _ hword).mpr hkey⟩

end SchemaQuery.Method
