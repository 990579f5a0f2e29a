import Mathlib.Data.List.Nodup
import Mathlib.Data.List.Perm.Basic
import SchemaQuery.Proofs.Column.Definition.RoundTrip
import SchemaQuery.Proofs.Text.Words

/-! Definitions that say the same in different ways.  The clauses of a definition may come in any
order, with the comment at the end, the words of the grammar may be in any letter case, and any
blanks may stand between tokens.  What matters is which clauses there are: as long as no two of them
are of one kind, they give one column. -/

namespace SchemaQuery.Definition

variable {c d : Clause} {cs ds : List Clause} {words rest : List String}
  {token text gap word definition : String}

/-! ### Tokens with blanks between them -/

/-- Whether a text is one token: no blank outside quotes and brackets cuts it. -/
def IsToken (token : String) : Prop := tokens token = .ok [token]

/-- Whether a text is what may stand between two tokens. -/
def IsGap (gap : String) : Prop := gap ≠ "" ∧ gap.toList.all Text.isBlank = true

instance : Decidable (IsGap gap) := inferInstanceAs (Decidable (_ ∧ _))

/-- The texts that consist of some tokens with blanks between them. -/
inductive Spaced : List String → String → Prop
  | single (token : String) : Spaced [token] token
  | cons (token gap : String) {text : String} {rest : List String} (hgap : IsGap gap)
    (h : Spaced rest text) : Spaced (token :: rest) (token ++ gap ++ text)

theorem tokens_gap {gap : List Char} (hgap : ∀ c ∈ gap, Text.isBlank c = true)
    (h : tokens text = .ok words) : tokens (String.ofList gap ++ text) = .ok words := by
  induction gap with
  | nil => simpa using h
  | cons c rest ih =>
    obtain ⟨hc, hrest⟩ := List.forall_mem_cons.mp hgap
    have hnone : tokens "" = .ok [] := rfl
    have hsplit : String.ofList (c :: rest) ++ text =
        "" ++ String.singleton c ++ (String.ofList rest ++ text) := by
      simp [← String.toList_inj]
    rw [hsplit]
    exact tokens_append_char hc hnone (ih hrest)

/-- Any blanks end a token just as a single one does. -/
theorem tokens_append_gap {as bs : List String} (hgap : IsGap gap) (ha : tokens token = .ok as)
    (hb : tokens text = .ok bs) : tokens (token ++ gap ++ text) = .ok (as ++ bs) := by
  obtain ⟨hne, hblanks⟩ := hgap
  obtain ⟨c, more, hcons⟩ : ∃ c more, gap.toList = c :: more :=
    List.exists_cons_of_ne_nil fun hnil => hne (String.toList_eq_nil_iff.mp hnil)
  rw [hcons, List.all_eq_true] at hblanks
  obtain ⟨hc, hmore⟩ := List.forall_mem_cons.mp hblanks
  have hsplit : token ++ gap ++ text = token ++ String.singleton c ++
      (String.ofList more ++ text) := by
    simp [← String.toList_inj, hcons]
  rw [hsplit]
  exact tokens_append_char hc ha (tokens_gap hmore hb)

theorem Spaced.tokens (h : Spaced words text) (htokens : ∀ token ∈ words, IsToken token) :
    tokens text = .ok words := by
  induction h with
  | single token => exact htokens token List.mem_cons_self
  | cons token gap hgap h ih =>
    obtain ⟨htoken, hrest⟩ := List.forall_mem_cons.mp htokens
    exact tokens_append_gap hgap htoken (ih hrest)

/-! ### Words in any letter case -/

/-- No letter turns into a blank, a mark or a bracket, or out of one, by its case. -/
theorem isToken_of_lower {known : List String} (hknown : ∀ word ∈ known, needsQuotes word = false)
    (h : known.contains (Text.lower word) = true) : IsToken word := by
  obtain ⟨hne, hlower⟩ := needsQuotes_eq_false_iff.mp (hknown _ (List.contains_iff_mem.mp h))
  have hplain : ∀ c ∈ word.toList, Text.isBlank c = false ∧ isQuote c = false ∧ c ≠ '(' ∧
      c ≠ ')' := by
    intro c hc
    have hmem : c.toLower ∈ (Text.lower word).toList := by
      rw [Text.lower, String.toList_ofList]
      exact List.mem_map_of_mem hc
    obtain ⟨hblank, hquote, hopen, hclose, -⟩ := hlower _ hmem
    refine ⟨?_, ?_, ?_, ?_⟩
    · rwa [Text.isBlank_toLower] at hblank
    · by_contra hq
      simp only [isQuote, Bool.not_eq_false, Bool.or_eq_true, beq_iff_eq] at hq
      obtain (rfl | rfl) | rfl := hq <;> cases hquote
    · rintro rfl
      exact hopen rfl
    · rintro rfl
      exact hclose rfl
  have hword : word ≠ "" := by
    rintro rfl
    exact hne rfl
  exact tokens_of_plain hword hplain

theorem isToken_of_isKeyword (h : isKeyword word = true) : IsToken word :=
  isToken_of_lower (by decide) h

theorem isToken_of_isTypeSuffix (h : isTypeSuffix word = true) : IsToken word :=
  isToken_of_lower (by decide) h

theorem isKeyword_of_lower {known : String} (h : Text.lower word = known)
    (hknown : keywords.contains known = true) : isKeyword word = true := by
  rw [isKeyword, h]
  exact hknown

/-! ### Clauses and their words -/

/-- The words that spell a clause.  Those of the grammar are in any letter case, those of a default
and of a comment as they are. -/
inductive Spelled : Clause → List String → Prop
  | notNull {word next : String} (h : Text.lower word = "not") (hnext : Text.lower next = "null") :
    Spelled (.nullable false) [word, next]
  | null {word : String} (h : Text.lower word = "null") : Spelled (.nullable true) [word]
  | default {word : String} {value : List String} (h : Text.lower word = "default")
    (hvalue : IsDefault value) (htokens : ∀ token ∈ value, IsToken token) :
    Spelled (.default (" ".intercalate value)) (word :: value)
  | visible {word : String} (h : Text.lower word = "visible") : Spelled (.visible true) [word]
  | invisible {word : String} (h : Text.lower word = "invisible") : Spelled (.visible false) [word]
  | increment {word : String}
    (h : Text.lower word = "increment" ∨ Text.lower word = "auto_increment") :
    Spelled .increment [word]
  | index {word : String} (h : Text.lower word = "key") : Spelled (.key .index) [word]
  | key {word : String} {kind : KeyKind} (hkind : kind ≠ .index)
    (h : Text.lower word = kind.keyword) : Spelled (.key kind) [word]
  | keyWord {word next : String} {kind : KeyKind} (hkind : kind ≠ .index)
    (h : Text.lower word = kind.keyword) (hnext : Text.lower next = "key") :
    Spelled (.key kind) [word, next]
  | comment {word : String} {text : List String} (h : Text.lower word = "comment")
    (htokens : ∀ token ∈ text, IsToken token) : Spelled (.comment (commentText text)) (word :: text)

theorem contains_keyword {kind : KeyKind} (hkind : kind ≠ .index) :
    keywords.contains kind.keyword = true := by
  cases kind with
  | index => exact absurd rfl hkind
  | unique => decide
  | primary => decide

/-- A clause begins with a word of the grammar, and only an index with the word `key`. -/
theorem Spelled.exists_cons (h : Spelled c words) :
    ∃ word more, words = word :: more ∧ isKeyword word = true ∧
    (Text.lower word = "key" → c = .key .index) ∧ ∀ token ∈ more, IsToken token := by
  cases h with
  | @notNull word next h hnext =>
    refine ⟨word, [next], rfl, isKeyword_of_lower h (by decide), by simp [h], ?_⟩
    simpa using isToken_of_isKeyword (isKeyword_of_lower hnext (by decide))
  | @null word h => exact ⟨word, [], rfl, isKeyword_of_lower h (by decide), by simp [h], by simp⟩
  | @default word value h hvalue htokens =>
    exact ⟨word, value, rfl, isKeyword_of_lower h (by decide), by simp [h], htokens⟩
  | @visible word h => exact ⟨word, [], rfl, isKeyword_of_lower h (by decide), by simp [h], by simp⟩
  | @invisible word h =>
    exact ⟨word, [], rfl, isKeyword_of_lower h (by decide), by simp [h], by simp⟩
  | @increment word h =>
    obtain h | h := h <;>
      exact ⟨word, [], rfl, isKeyword_of_lower h (by decide), by simp [h], by simp⟩
  | @index word h => exact ⟨word, [], rfl, isKeyword_of_lower h (by decide), fun _ => rfl, by simp⟩
  | @key word kind hkind h =>
    have hno : Text.lower word ≠ "key" := by cases kind <;> simp [h, KeyKind.keyword]
    exact ⟨word, [], rfl, isKeyword_of_lower h (contains_keyword hkind),
      fun hk => absurd hk hno, by simp⟩
  | @keyWord word next kind hkind h hnext =>
    have hno : Text.lower word ≠ "key" := by cases kind <;> simp [h, KeyKind.keyword]
    refine ⟨word, [next], rfl, isKeyword_of_lower h (contains_keyword hkind),
      fun hk => absurd hk hno, ?_⟩
    simpa using isToken_of_isKeyword (isKeyword_of_lower hnext (by decide))
  | @comment word text h htokens =>
    exact ⟨word, text, rfl, isKeyword_of_lower h (by decide), by simp [h], htokens⟩

theorem Spelled.isToken (h : Spelled c words) : ∀ word ∈ words, IsToken word := by
  obtain ⟨word, more, rfl, hword, -, hmore⟩ := h.exists_cons
  exact List.forall_mem_cons.mpr ⟨isToken_of_isKeyword hword, hmore⟩

theorem Spelled.beginsClause (h : Spelled c words) : BeginsClause words := by
  obtain ⟨word, more, rfl, hword, -⟩ := h.exists_cons
  exact beginsClause_cons hword

/-- A clause that is not a comment is read from its words, whatever clause comes next.  After a key
the next word must not be `key`, which would be taken along. -/
theorem clauses_of_spelled (h : Spelled c words) (hcomment : ∀ text, c ≠ .comment text)
    (hrest : BeginsClause rest) (hkey : ∀ kind, c = .key kind → afterKey rest = rest) :
    clauses definition (words ++ rest) = (clauses definition rest).map (c :: ·) := by
  cases h with
  | notNull h hnext =>
    refine clauses_cons ?_
    simp [clause, h, hnext]
  | null h =>
    refine clauses_cons ?_
    simp [clause, h]
  | default h hvalue => exact clauses_default h hvalue hrest
  | visible h =>
    refine clauses_cons ?_
    simp [clause, h]
  | invisible h =>
    refine clauses_cons ?_
    simp [clause, h]
  | increment h =>
    refine clauses_cons ?_
    obtain h | h := h <;> simp [clause, h]
  | index h =>
    refine clauses_cons ?_
    simp [clause, h]
  | @key word kind hkind h =>
    refine clauses_cons ?_
    cases kind with
    | index => exact absurd rfl hkind
    | unique => simp [clause, h, KeyKind.keyword, hkey]
    | primary => simp [clause, h, KeyKind.keyword, hkey]
  | @keyWord word next kind hkind h hnext =>
    refine clauses_cons ?_
    cases kind with
    | index => exact absurd rfl hkind
    | unique => simp [clause, h, KeyKind.keyword, afterKey, hnext]
    | primary => simp [clause, h, KeyKind.keyword, afterKey, hnext]
  | comment h htokens => exact absurd rfl (hcomment _)

theorem clauses_of_spelled_comment {comment : String} (h : Spelled (.comment comment) words) :
    clauses definition words = .ok [.comment comment] := by
  cases h with
  | @comment word text h htokens =>
    have hc : clause definition word text = .ok (.comment (commentText text), []) := by
      simp [clause, h]
    rw [clauses_cons hc, clauses, map_ok]

/-! ### Many clauses -/

variable {parts : List (List String)}

theorem beginsClause_flatten (h : List.Forall₂ Spelled cs parts) : BeginsClause parts.flatten := by
  induction h with
  | nil => exact beginsClause_nil
  | cons hc _ ih => exact hc.beginsClause.append ih

theorem isToken_of_mem_flatten (h : List.Forall₂ Spelled cs parts) :
    ∀ word ∈ parts.flatten, IsToken word := by
  induction h with
  | nil => simp
  | cons hc _ ih => exact List.forall_mem_append.mpr ⟨hc.isToken, ih⟩

/-- Where no clause is a key, no word is taken along with a key before them. -/
theorem afterKey_flatten (h : List.Forall₂ Spelled cs parts) (hno : ∀ kind, .key kind ∉ cs)
    (hrest : afterKey rest = rest) : afterKey (parts.flatten ++ rest) = parts.flatten ++ rest := by
  cases h with
  | nil => exact hrest
  | @cons c words cs parts hc _ =>
    obtain ⟨word, more, rfl, -, hkey, -⟩ := hc.exists_cons
    have hword : Text.lower word ≠ "key" := fun hw => hno .index (by simp [hkey hw])
    simp [afterKey, hword]

/-- The kinds of clauses; a column has at most one clause of each kind. -/
def kinds (cs : List Clause) : List Nat := cs.map Clause.ctorIdx

theorem clauses_of_forall₂ (h : List.Forall₂ Spelled cs parts) (hkinds : (kinds cs).Nodup)
    (hcomment : ∀ text, .comment text ∉ cs) (hrest : BeginsClause rest)
    (hkey : afterKey rest = rest) :
    clauses definition (parts.flatten ++ rest) = (clauses definition rest).map (cs ++ ·) := by
  induction h with
  | nil => cases hc : clauses definition rest <;> exact hc
  | @cons c words cs parts hc hcs ih =>
    obtain ⟨hfresh, hothers⟩ := List.nodup_cons.mp hkinds
    have hafter (kind : KeyKind) (hk : c = .key kind) :
        afterKey (parts.flatten ++ rest) = parts.flatten ++ rest := by
      refine afterKey_flatten hcs (fun other hmem => hfresh ?_) hkey
      rw [hk]
      exact List.mem_map.mpr ⟨.key other, hmem, rfl⟩
    rw [List.flatten_cons, List.append_assoc,
      clauses_of_spelled hc (fun text ht => hcomment text (by simp [ht]))
        ((beginsClause_flatten hcs).append hrest) hafter,
      ih hothers fun text ht => hcomment text (List.mem_cons_of_mem _ ht)]
    cases clauses definition rest <;> rfl

/-! ### Clauses in another order -/

/-- A fold whose steps for clauses of different kinds commute does not depend on their order. -/
theorem foldl_perm {α : Type} {step : α → Clause → α} (h : cs.Perm ds) (hkinds : (kinds cs).Nodup)
    (hcomm : ∀ a c d, c.ctorIdx ≠ d.ctorIdx → step (step a c) d = step (step a d) c) (a : α) :
    cs.foldl step a = ds.foldl step a := by
  refine h.foldl_eq' (fun c hc d hd a => ?_) a
  by_cases hcd : c = d
  · rw [hcd]
  · exact hcomm a c d fun hkind => hcd (List.inj_on_of_nodup_map hkinds hc hd hkind)

theorem apply_comm (column : Column) (c d : Clause) (h : c.ctorIdx ≠ d.ctorIdx) :
    apply (apply column c) d = apply (apply column d) c := by
  cases c <;> cases d <;> first | rfl | exact absurd rfl h

/-- The clauses of different kinds say different things, and so their order does not matter. -/
theorem build_perm {name type : String} (h : cs.Perm ds) (hkinds : (kinds cs).Nodup) :
    build name type cs = build name type ds := by
  have hkey : keyOf cs = keyOf ds := by
    refine foldl_perm h hkinds (fun found c d hcd => ?_) none
    cases c <;> cases d <;> first | rfl | exact absurd rfl hcd
  rw [build, build, foldl_perm h hkinds apply_comm, hkey]

/-! ### The options of a column -/

/-- What the clauses of a definition say, at most one of each kind. -/
structure Options where
  nullable : Option Bool := none
  defaultValue : Option String := none
  visible : Option Bool := none
  increments : Bool := false
  key : Option KeyKind := none
  comment : Option String := none

namespace Options

variable {o : Options}

/-- The clauses that may stand in any order. -/
def clauses (o : Options) : List Clause :=
  o.nullable.toList.map .nullable ++ o.defaultValue.toList.map .default ++
    o.visible.toList.map .visible ++ (if o.increments then [.increment] else []) ++
    o.key.toList.map .key

/-- The clause that stands last, since it takes all the words after it. -/
def lastClauses (o : Options) : List Clause := o.comment.toList.map .comment

/-- The column of that name and type with these options.  A primary key leaves no cell empty. -/
def column (o : Options) (name type : String) : Column :=
  { name, type
    nullable := o.nullable.getD true && decide (o.key ≠ some .primary)
    defaultValue := o.defaultValue
    visible := o.visible.getD true
    autoIncrement := o.increments
    comment := o.comment.getD ""
    constraints := keyConstraints name o.key }

theorem kinds_append : kinds (cs ++ ds) = kinds cs ++ kinds ds := List.map_append

theorem kinds_sublist {α : Type} {found : Option α} {make : α → Clause} {kind : Nat}
    (hkind : ∀ a, (make a).ctorIdx = kind) : (kinds (found.toList.map make)).Sublist [kind] := by
  cases found with
  | none => exact List.nil_sublist _
  | some a => simp [kinds, hkind]

theorem nodup_kinds (o : Options) : (kinds (o.clauses ++ o.lastClauses)).Nodup := by
  have hnullable : (kinds (o.nullable.toList.map .nullable)).Sublist [0] :=
    kinds_sublist fun _ => rfl
  have hdefault : (kinds (o.defaultValue.toList.map .default)).Sublist [1] :=
    kinds_sublist fun _ => rfl
  have hvisible : (kinds (o.visible.toList.map .visible)).Sublist [2] := kinds_sublist fun _ => rfl
  have hincrement : (kinds (if o.increments then [.increment] else [])).Sublist [3] := by
    cases o.increments <;> decide
  have hkey : (kinds (o.key.toList.map .key)).Sublist [4] := kinds_sublist fun _ => rfl
  have hcomment : (kinds (o.comment.toList.map .comment)).Sublist [5] := kinds_sublist fun _ => rfl
  have hall : (kinds (o.clauses ++ o.lastClauses)).Sublist
      ([0] ++ [1] ++ [2] ++ [3] ++ [4] ++ [5]) := by
    simp only [clauses, lastClauses, kinds_append]
    exact ((((hnullable.append hdefault).append hvisible).append hincrement).append
      hkey).append hcomment
  exact hall.nodup (by decide)

theorem comment_notMem_clauses (o : Options) (text : String) : .comment text ∉ o.clauses := by
  cases h : o.increments <;> simp [clauses, h]

theorem key_notMem_lastClauses (o : Options) (kind : KeyKind) : .key kind ∉ o.lastClauses := by
  simp [lastClauses]

theorem keyOf_clauses (o : Options) : keyOf (o.clauses ++ o.lastClauses) = o.key := by
  obtain ⟨nullable, defaultValue, visible, increments, key, comment⟩ := o
  cases increments <;> cases nullable <;> cases defaultValue <;> cases visible <;> cases key <;>
    cases comment <;> rfl

theorem foldl_apply_clauses (o : Options) (name type : String) :
    (o.clauses ++ o.lastClauses).foldl apply { name, type } =
      { o.column name type with nullable := o.nullable.getD true, constraints := [] } := by
  obtain ⟨nullable, defaultValue, visible, increments, key, comment⟩ := o
  cases increments <;> cases nullable <;> cases defaultValue <;> cases visible <;> cases key <;>
    cases comment <;> rfl

/-- The clauses of the options build the column that has them. -/
theorem build_clauses (o : Options) (name type : String) :
    build name type (o.clauses ++ o.lastClauses) = o.column name type := by
  rw [build_eq, foldl_apply_clauses, keyOf_clauses]
  rfl

theorem clauses_lastClauses {last : List (List String)}
    (h : List.Forall₂ Spelled o.lastClauses last) :
    Definition.clauses definition last.flatten = .ok o.lastClauses := by
  rw [lastClauses] at *
  generalize o.comment = comment at *
  cases comment with
  | none =>
    cases h
    rw [List.flatten_nil, Definition.clauses]
    rfl
  | some text =>
    obtain _ | ⟨hc, ⟨⟩⟩ := h
    simpa using clauses_of_spelled_comment hc

/-- Whether a text says these options after a name and a type: the clauses in any order, each in one
of its spellings, the comment at the end, and any blanks between the tokens. -/
def Arranges (o : Options) (first base : String) (suffixes : List String) (text : String) : Prop :=
  ∃ cs parts last, cs.Perm o.clauses ∧ List.Forall₂ Spelled cs parts ∧
    List.Forall₂ Spelled o.lastClauses last ∧
    Spaced (first :: base :: (suffixes ++ (parts.flatten ++ last.flatten))) text

variable {first base : String} {suffixes : List String}

/-- The words of an arrangement are read as its clauses, whose order does not matter any more. -/
theorem Arranges.tokens (h : o.Arranges first base suffixes text) (hfirst : IsToken first)
    (hbase : IsToken base) (hsuffixes : ∀ token ∈ suffixes, isTypeSuffix token = true) :
    ∃ words cs, Definition.tokens text = .ok (first :: base :: (suffixes ++ words)) ∧
      BeginsClause words ∧ Definition.clauses text words = .ok cs ∧
      ∀ name type, build name type cs = o.column name type := by
  obtain ⟨cs, parts, last, hperm, hparts, hlast, hspaced⟩ := h
  have htokens : Definition.tokens text =
      .ok (first :: base :: (suffixes ++ (parts.flatten ++ last.flatten))) := by
    refine hspaced.tokens ?_
    simp only [List.forall_mem_cons, List.forall_mem_append]
    exact ⟨hfirst, hbase, fun token ht => isToken_of_isTypeSuffix (hsuffixes token ht),
      isToken_of_mem_flatten hparts, isToken_of_mem_flatten hlast⟩
  have hall : (cs ++ o.lastClauses).Perm (o.clauses ++ o.lastClauses) := hperm.append_right _
  have hkinds : (kinds (cs ++ o.lastClauses)).Nodup :=
    (hall.map Clause.ctorIdx).nodup_iff.mpr o.nodup_kinds
  have hnil : afterKey [] = [] := rfl
  have hafter : afterKey last.flatten = last.flatten := by
    simpa using afterKey_flatten hlast o.key_notMem_lastClauses hnil
  have hbegins : BeginsClause last.flatten := beginsClause_flatten hlast
  refine ⟨_, cs ++ o.lastClauses, htokens, (beginsClause_flatten hparts).append hbegins, ?_,
    fun name type => ?_⟩
  · rw [clauses_of_forall₂ hparts (kinds_append ▸ hkinds).of_append_left
      (fun text ht => o.comment_notMem_clauses text (hperm.mem_iff.mp ht)) hbegins hafter,
      clauses_lastClauses hlast, map_ok]
  · rw [build_perm hall hkinds, build_clauses]

end Options

end SchemaQuery.Definition

namespace SchemaQuery.Column

open Definition

variable {first base : String} {suffixes : List String} {o : Options}

/-- Every text that says the options gives the one column that has them: the order of the clauses,
the case of the words and the blanks between tokens do not matter.  A name with nothing between its
marks is missed in each of them. -/
theorem ofDefinition_arranged (hfirst : IsToken first) (hbase : IsToken base)
    (hsuffixes : ∀ token ∈ suffixes, isTypeSuffix token = true) :
    (unquote '\x60' first ≠ "" → ∀ text, o.Arranges first base suffixes text →
      ofDefinition text =
        .ok (o.column (unquote '\x60' first) (" ".intercalate (base :: suffixes)))) ∧
    (unquote '\x60' first = "" → ∀ text, o.Arranges first base suffixes text →
      ofDefinition text = .error (.definition (.missingName text))) := by
  constructor
  · intro hname text h
    obtain ⟨words, cs, htokens, hbegins, hcs, hbuild⟩ := h.tokens hfirst hbase hsuffixes
    obtain ⟨htake, hdrop⟩ := isTypeSuffix_append hsuffixes hbegins
    rw [ofDefinition_eq_ok_iff, parse, htokens, ok_bind]
    exact ofTokens_eq_ok_iff.mpr ⟨first, base, suffixes ++ words, cs, rfl, hname,
      by rw [hdrop, hcs], by rw [htake, hbuild]⟩
  · intro hname text h
    obtain ⟨words, cs, htokens, -⟩ := h.tokens hfirst hbase hsuffixes
    simp [ofDefinition, parse, htokens, ok_bind, ofTokens, hname, Except.mapError]

/-- Clauses of every kind, with a default that begins with a word of the grammar. -/
theorem ofDefinition_arranged_mixed :
    let o : Options :=
      { nullable := some false, defaultValue := some "NULL + 'x y'", visible := some false,
        increments := true, key := some .unique, comment := some "it's" }
    let text :=
      "\x60a b\x60\tINT(10)\n Unsigned UNIQUE  Key Default NULL +\t'x y' Auto_Increment " ++
        "NOT\n\nnull Invisible Comment 'it''s'"
    IsToken "\x60a b\x60" ∧ IsToken "INT(10)" ∧
      o.Arranges "\x60a b\x60" "INT(10)" ["Unsigned"] text ∧
      ofDefinition text = .ok (o.column "a b" "INT(10) Unsigned") := by
  intro o text
  have hname : IsToken "\x60a b\x60" := rfl
  have htype : IsToken "INT(10)" := rfl
  have hkey : Spelled (.key .unique) ["UNIQUE", "Key"] := .keyWord (by decide) rfl rfl
  have hdefault : Spelled (.default "NULL + 'x y'") ["Default", "NULL", "+", "'x y'"] :=
    .default rfl ⟨"NULL", ["+", "'x y'"], rfl, by decide⟩ (by simp [IsToken]; decide)
  have hunquoted : commentText ["'it''s'"] = "it's" := by decide
  have hcomment : Spelled (.comment "it's") ["Comment", "'it''s'"] :=
    hunquoted ▸ .comment rfl (by simp [IsToken]; decide)
  have hspaced : Spaced ["\x60a b\x60", "INT(10)", "Unsigned", "UNIQUE", "Key", "Default", "NULL",
      "+", "'x y'", "Auto_Increment", "NOT", "null", "Invisible", "Comment", "'it''s'"] text := by
    have hblank : IsGap " " := by decide
    have hblanks : IsGap "  " := by decide
    have htab : IsGap "\t" := by decide
    have hline : IsGap "\n " := by decide
    have hlines : IsGap "\n\n" := by decide
    have h := Spaced.cons "\x60a b\x60" "\t" htab <| .cons "INT(10)" "\n " hline <|
      .cons "Unsigned" " " hblank <| .cons "UNIQUE" "  " hblanks <| .cons "Key" " " hblank <|
      .cons "Default" " " hblank <| .cons "NULL" " " hblank <| .cons "+" "\t" htab <|
      .cons "'x y'" " " hblank <| .cons "Auto_Increment" " " hblank <| .cons "NOT" "\n\n" hlines <|
      .cons "null" " " hblank <| .cons "Invisible" " " hblank <| .cons "Comment" " " hblank <|
      .single "'it''s'"
    exact h
  have harranges : o.Arranges "\x60a b\x60" "INT(10)" ["Unsigned"] text := by
    have hlist : List.Forall₂ Spelled
        [.key .unique, .default "NULL + 'x y'", .increment, .nullable false, .visible false]
        [["UNIQUE", "Key"], ["Default", "NULL", "+", "'x y'"], ["Auto_Increment"], ["NOT", "null"],
          ["Invisible"]] :=
      .cons hkey (.cons hdefault (.cons (.increment (.inr rfl)) (.cons (.notNull rfl rfl)
        (.cons (.invisible rfl) .nil))))
    exact ⟨_, _, [["Comment", "'it''s'"]], by decide +kernel, hlist, .cons hcomment .nil, hspaced⟩
  have hread := (ofDefinition_arranged hname htype (by decide)).1 (by decide) text harranges
  have hquoted : unquote '\x60' "\x60a b\x60" = "a b" := by decide
  rw [hquoted] at hread
  exact ⟨hname, htype, harranges, hread⟩

end SchemaQuery.Column
