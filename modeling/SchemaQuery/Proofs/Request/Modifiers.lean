import SchemaQuery.Proofs.Request.Agreement

/-! The modifiers that a method uses.  A request is checked and written as if all the others had not
been given. -/

namespace SchemaQuery

/-- The modifiers that a method uses on such fields; the others are as if they had not been
given. -/
def Modifiers.usedBy (m : Modifiers) : Method → Fields → Modifiers
  | .select, _ | .distinct, _ =>
    { predicate := m.predicate, groupBy := m.groupBy, orderBy := m.orderBy, limit := m.limit }
  | .count, _ => { predicate := m.predicate, groupBy := m.groupBy }
  | .update, _ | .delete, _ => { predicate := m.predicate }
  | .createTable _ _, _ => { temporary := m.temporary, clobber := m.clobber }
  | .dropTable _, _ => { temporary := m.temporary }
  | .addColumn, _ => { after := m.after }
  | .alterColumn, .column _ => { newDefinition := m.newDefinition }
  | .addConstraint .foreign, _ => { name := m.name, foreign := m.foreign }
  | .addConstraint _, _ => { name := m.name }
  | _, _ => {}

theorem optionRel_refl {α : Type} {same : α → α → Prop} (h : ∀ a, same a a) (x : Option α) :
    Option.Rel same x x := by
  cases x with
  | none => exact .none
  | some a => exact .some (h a)

theorem Modifiers.agree_usedBy {same : ColumnRef → ColumnRef → Prop} (hsame : ∀ a, same a a)
    (m : Modifiers) (method : Method) (fields : Fields) :
    Agree same method fields m (m.usedBy method fields) where
  predicate hw := by cases method <;> first | rfl | cases hw
  groupBy hg := by cases method <;> first | exact optionRel_refl hsame _ | cases hg
  orderBy ho := by cases method <;> first | exact optionRel_refl hsame _ | cases ho
  limit hl := by cases method <;> first | rfl | cases hl
  temporary := by rintro (⟨_, _, rfl⟩ | ⟨_, rfl⟩) <;> rfl
  clobber := by rintro ⟨_, _, rfl⟩; rfl
  after := by rintro rfl; exact optionRel_refl hsame _
  newDefinition := by rintro rfl ⟨_, rfl⟩; rfl
  name := by rintro ⟨kind, rfl⟩; cases kind <;> rfl
  foreign := by rintro rfl; rfl

namespace Request

/-- The request with other modifiers. -/
def withModifiers (request : Request) (modifiers : Modifiers) : Request :=
  { request with modifiers }

variable {catalog : Catalog} {request : Request} {resolved : Resolved}

theorem agree_usedBy (request : Request) (resolved : Resolved) : Agree resolved request
    (request.withModifiers (request.modifiers.usedBy resolved.method request.fields)) where
  target := rfl
  creation _ := rfl
  fields := Fields.Agree.refl (ColumnRef.Agree.refl _) _
  definitions _ := rfl
  modifiers := Modifiers.agree_usedBy (ColumnRef.Agree.refl _) _ _ _

theorem method_of_resolve (h : request.resolve catalog = .ok resolved) :
    Method.ofText request.method = .ok resolved.method := (resolve_eq_ok_iff.mp h).2.1

/-- Leaving out the modifiers that the method does not use changes nothing. -/
theorem validate_text_used (catalog : Catalog) (request : Request) {method : Method}
    (hm : Method.ofText request.method = .ok method) :
    request.validate catalog =
        (request.withModifiers (request.modifiers.usedBy method request.fields)).validate catalog ∧
      request.text catalog =
        (request.withModifiers (request.modifiers.usedBy method request.fields)).text catalog := by
  refine validate_text_eq rfl fun resolved hr => ?_
  cases hm.symm.trans (method_of_resolve hr)
  exact agree_usedBy request resolved

/-- Modifiers that agree on what the method of the request uses, if its words name one, make no
difference to whether the request is valid, to the error it is rejected with, or to its text. -/
theorem validate_text_of_usedBy (catalog : Catalog) (request : Request) (m n : Modifiers)
    (h : ∀ method, Method.ofText request.method = .ok method →
      m.usedBy method request.fields = n.usedBy method request.fields) :
    (request.withModifiers m).validate catalog = (request.withModifiers n).validate catalog ∧
      (request.withModifiers m).text catalog = (request.withModifiers n).text catalog := by
  cases hm : Method.ofText request.method with
  | error fault =>
    -- Without a method there is nothing to agree on, and the request is rejected for its words.
    exact validate_text_eq rfl fun resolved hr => nomatch hm.symm.trans (method_of_resolve hr)
  | ok method =>
    have hleft := validate_text_used catalog (request.withModifiers m) hm
    have hright := validate_text_used catalog (request.withModifiers n) hm
    have hused : (request.withModifiers m).withModifiers (m.usedBy method request.fields) =
        (request.withModifiers n).withModifiers (n.usedBy method request.fields) := by
      rw [h method hm]
      rfl
    exact ⟨(hleft.1.trans (congrArg (validate catalog) hused)).trans hright.1.symm,
      (hleft.2.trans (congrArg (text catalog) hused)).trans hright.2.symm⟩

/-- A count takes no limit and no order, so that neither a limit of zero nor an unknown column to
order by is a fault of it. -/
theorem validate_text_of_usedBy_count :
    let users : Table :=
      { name := "users", columns := [{ name := "id", owner := some "users", type := "int" }] }
    let request : Request := { method := "count", table := .byName "users" }
    let m : Modifiers := { groupBy := some (.byName "id") }
    let n : Modifiers :=
      { m with limit := some 0, orderBy := some (.byName "nowhere"), clobber := true }
    (∀ method, Method.ofText request.method = .ok method →
        m.usedBy method request.fields = n.usedBy method request.fields) ∧
      (request.withModifiers m).text ⟨true, [users]⟩ =
        .ok "select count(*) from `users` group by users.id;" ∧
      (request.withModifiers m).validate ⟨true, [users]⟩ =
        (request.withModifiers n).validate ⟨true, [users]⟩ ∧
      (request.withModifiers m).text ⟨true, [users]⟩ =
        (request.withModifiers n).text ⟨true, [users]⟩ := by
  intro users request m n
  have hused : ∀ method, Method.ofText request.method = .ok method →
      m.usedBy method request.fields = n.usedBy method request.fields := by
    intro method hm
    cases (show Method.ofText request.method = .ok .count by decide +kernel).symm.trans hm
    rfl
  exact ⟨hused, by decide +kernel, validate_text_of_usedBy ⟨true, [users]⟩ request m n hused⟩

end Request

end SchemaQuery
