import Stepwise.Proofs.Breakpoint.Advising
import Stepwise.Proofs.Breakpoint.Agreement

namespace Stepwise
open EngineM Text

/-- What can stand as a condition: nothing, blanks or an expression. -/
inductive AllowedCondition : Option String → Prop
  | absent : AllowedCondition none
  | blank {text : String} (h : trim text = "") : AllowedCondition (some text)
  | expression {text : String} {e : Expr} (h : Expr.parse text = .ok e) :
    AllowedCondition (some text)

/-- A text that is, blanks around it apart, decimal digits with at most a plus sign in front, and
denotes a positive number of 64 bits. -/
def IsPositiveNumber (text : String) : Prop :=
  ∃ digits, (trimBlanks text.toList = digits ∨ trimBlanks text.toList = '+' :: digits) ∧
    digits ≠ [] ∧ (∀ c ∈ digits, c.isDigit) ∧
    1 ≤ Nat.ofDigitChars 10 digits 0 ∧ Nat.ofDigitChars 10 digits 0 < wordBound

/-- What can stand as a hit count: nothing, blanks or a positive number. -/
inductive AllowedHitCount : Option String → Prop
  | absent : AllowedHitCount none
  | blank {text : String} (h : trim text = "") : AllowedHitCount (some text)
  | number {text : String} (h : IsPositiveNumber text) : AllowedHitCount (some text)

theorem nonBlank_of_blank {text : String} (h : trim text = "") : nonBlank (some text) = none := by
  simp [nonBlank, h]

theorem nonBlank_of_not_blank {text : String} (h : trim text ≠ "") :
    nonBlank (some text) = some (trim text) := by
  simp [nonBlank, h]

/-- A condition is read if and only if it is allowed. -/
theorem exists_readCondition_iff (condition : Option String) :
    (∃ c, Script.readCondition (nonBlank condition) = .ok c) ↔ AllowedCondition condition := by
  cases condition with
  | none => exact iff_of_true ⟨none, rfl⟩ .absent
  | some text =>
    by_cases hb : trim text = ""
    · rw [nonBlank_of_blank hb]
      exact iff_of_true ⟨none, rfl⟩ (.blank hb)
    · rw [nonBlank_of_not_blank hb, Script.readCondition, Expr.parse_trim]
      constructor
      · rintro ⟨c, hc⟩
        cases hp : Expr.parse text with
        | error => simp [hp, Except.map] at hc
        | ok e => exact .expression hp
      · rintro (_ | h | h)
        · exact absurd h hb
        · exact ⟨_, by rw [h]; rfl⟩

theorem ofDigits?_eq_some_iff {cs : List Char} {n : Nat} :
    ofDigits? cs = some n ↔ cs ≠ [] ∧ (∀ c ∈ cs, c.isDigit) ∧ n = Nat.ofDigitChars 10 cs 0 := by
  rw [ofDigits?, Option.ite_none_right_eq_some, List.all_eq_true, Option.some.injEq, and_assoc]
  exact and_congr_right' (and_congr_right' eq_comm)

/-- An unsigned number is read from its digits, with or without a plus sign in front of them. -/
theorem exists_readUnsigned?_iff {cs : List Char} :
    (∃ n, readUnsigned? cs = some n ∧ 0 < n) ↔
      ∃ digits, (cs = digits ∨ cs = '+' :: digits) ∧ digits ≠ [] ∧ (∀ c ∈ digits, c.isDigit) ∧
        1 ≤ Nat.ofDigitChars 10 digits 0 ∧ Nat.ofDigitChars 10 digits 0 < wordBound := by
  constructor
  · rintro ⟨n, hn, hpos⟩
    obtain ⟨hd, hlt⟩ := Option.filter_eq_some_iff.mp hn
    rw [decide_eq_true_eq] at hlt
    obtain ⟨hne, hall, rfl⟩ := ofDigits?_eq_some_iff.mp hd
    refine ⟨_, ?_, hne, hall, hpos, hlt⟩
    split
    · exact .inr rfl
    · exact .inl rfl
  · rintro ⟨digits, hcs, hne, hall, hpos, hlt⟩
    refine ⟨_, Option.filter_eq_some_iff.mpr ⟨?_, decide_eq_true hlt⟩, hpos⟩
    rw [ofDigits?_eq_some_iff]
    rcases hcs with rfl | rfl
    · split
      · next ds => exact absurd (hall '+' List.mem_cons_self) (by decide)
      · exact ⟨hne, hall, rfl⟩
    · exact ⟨hne, hall, rfl⟩

theorem exists_hitCount?_iff {text : String} :
    (∃ n, hitCount? text = .ok n) ↔ IsPositiveNumber text := by
  rw [IsPositiveNumber, ← exists_readUnsigned?_iff, hitCount?]
  generalize readUnsigned? (trimBlanks text.toList) = read
  cases read with
  | none => simp
  | some n => by_cases hn : 0 < n <;> simp [hn]

/-- The greatest hit count that there is, and the next number. -/
example : hitCount? " +18446744073709551615" = .ok 18446744073709551615 ∧
    hitCount? "18446744073709551616" = .error (badHitCount "18446744073709551616") :=
  ⟨by cbv, by cbv⟩

theorem isPositiveNumber_trim {text : String} :
    IsPositiveNumber (trim text) ↔ IsPositiveNumber text := by
  rw [IsPositiveNumber, IsPositiveNumber, trim, String.toList_ofList, trimBlanks_trimBlanks]

theorem exists_mapM_some_iff {α β ε : Type} {f : α → Except ε β} {a : α} :
    (∃ b, (some a).mapM f = .ok b) ↔ ∃ b, f a = .ok b := by
  rw [Option.mapM_some]
  cases f a with
  | error => exact iff_of_false nofun nofun
  | ok b => exact iff_of_true ⟨some b, rfl⟩ ⟨b, rfl⟩

/-- A hit count is read if and only if it is allowed. -/
theorem exists_mapM_hitCount?_iff (hitCondition : Option String) :
    (∃ n, (nonBlank hitCondition).mapM hitCount? = .ok n) ↔ AllowedHitCount hitCondition := by
  cases hitCondition with
  | none => exact iff_of_true ⟨none, rfl⟩ .absent
  | some text =>
    by_cases hb : trim text = ""
    · rw [nonBlank_of_blank hb]
      exact iff_of_true ⟨none, rfl⟩ (.blank hb)
    · rw [nonBlank_of_not_blank hb]
      rw [exists_mapM_some_iff, exists_hitCount?_iff, isPositiveNumber_trim]
      constructor
      · exact .number
      · rintro (_ | h | h)
        · exact absurd h hb
        · exact h

namespace Breakpoint

/-- Nothing is wrong with a breakpoint whose condition is an expression and whose hit count is a
number: on an expression there is no advice. -/
theorem validate_eq_ok {b : Breakpoint} {c : Option (String × Expr)} {n : Option Nat}
    (hc : Script.readCondition b.condition = .ok c) (hn : b.hitCondition.mapM hitCount? = .ok n) :
    b.validate = .ok n := by
  have hadvice : b.condition.bind operatorHint = none := by
    cases ht : b.condition with
    | none => rfl
    | some text =>
      rw [ht, Script.readCondition] at hc
      cases hp : Expr.parse text with
      | error => simp [hp, Except.map] at hc
      | ok e => exact operatorHint_of_parse hp
  unfold validate
  rw [hadvice]
  cases hh : b.hitCondition with
  | none =>
    rw [hh] at hn
    exact hn
  | some text =>
    rw [hh] at hn
    exact hn

theorem refusal?_eq_none_iff {b : Breakpoint} :
    b.refusal? = none ↔ (∃ c, Script.readCondition b.condition = .ok c) ∧
      ∃ n, b.hitCondition.mapM hitCount? = .ok n := by
  constructor
  · intro h
    unfold refusal? at h
    split at h
    · next terms ht =>
      obtain ⟨hv, hc⟩ := of_terms (n := terms.1) (c := terms.2) ht
      exact ⟨⟨_, hc⟩, _, hitCount_of_validate hv⟩
    · cases h
  · rintro ⟨⟨c, hc⟩, n, hn⟩
    simp only [refusal?, terms, validate_eq_ok hc hn, hc]

/-- What the client gets for a breakpoint that it asked for, with the condition and the hit count
as it wrote them. -/
structure Judged (asked : Breakpoint) (condition hitCondition : Option String) (b : Breakpoint) :
    Prop where
  /-- The place, the condition and the hit count are those that were asked for. -/
  asked : { b with id := none, verified := false, message := none } = asked
  verified : b.verified = true ↔ AllowedCondition condition ∧ AllowedHitCount hitCondition
  id : b.id.isSome = true ↔ b.verified = true
  message : b.message.isSome = true ↔ b.verified = false

/-- A breakpoint as it is asked for, before there is anything to tell about it. -/
structure Raised (asked : Breakpoint) (condition hitCondition : Option String) : Prop where
  condition : asked.condition = nonBlank condition
  hitCondition : asked.hitCondition = nonBlank hitCondition
  fresh : { asked with id := none, verified := false, message := none } = asked

namespace Raised

variable {asked b : Breakpoint} {condition hitCondition : Option String}

theorem refusal?_eq_none_iff (h : asked.Raised condition hitCondition) :
    asked.refusal? = none ↔ AllowedCondition condition ∧ AllowedHitCount hitCondition := by
  rw [Breakpoint.refusal?_eq_none_iff, h.condition, h.hitCondition, exists_readCondition_iff,
    exists_mapM_hitCount?_iff]

theorem judged_of_accepted (h : asked.Raised condition hitCondition) (ha : asked.refusal? = none)
    (id : BreakpointId) :
    asked.Judged condition hitCondition { asked.inForce with id := some id } where
  asked := h.fresh
  verified := iff_of_true rfl (h.refusal?_eq_none_iff.mp ha)
  id := iff_of_true rfl rfl
  message := by
    have hm : asked.message = none := (congrArg Breakpoint.message h.fresh).symm
    exact iff_of_false (by simp [inForce, hm]) nofun

theorem judged_of_refused (h : asked.Raised condition hitCondition) (hr : asked.refusal? = some b) :
    asked.Judged condition hitCondition b := by
  have hi : asked.id = none := (congrArg Breakpoint.id h.fresh).symm
  have hv : asked.verified = false := (congrArg Breakpoint.verified h.fresh).symm
  have hnot : ¬ (AllowedCondition condition ∧ AllowedHitCount hitCondition) := by
    rw [← h.refusal?_eq_none_iff, hr]
    exact nofun
  unfold refusal? at hr
  split at hr
  · cases hr
  · cases hr
    exact ⟨h.fresh, iff_of_false (by simp [hv]) hnot, by simp [hi, hv], by simp [hv]⟩

end Raised
end Breakpoint

section Requests

variable {ρ : Type} {asks : ρ → Breakpoint} {R : ρ → Breakpoint → Prop}

theorem confirmed_cons (last : BreakpointId) (b : Breakpoint) (l : List Breakpoint) :
    confirmed last (b :: l) = { b.inForce with id := some (last + 1) } :: confirmed (last + 1) l := by
  simp only [confirmed, List.mapIdx_cons, Nat.add_assoc, Nat.add_comm 1, Nat.zero_add]

theorem forall₂_confirmed (last : BreakpointId) {placed : List ρ} {l : List Breakpoint}
    (hacc : ∀ q ∈ placed, ∀ id, R q { (asks q).inForce with id := some id })
    (h : List.Forall₂ (fun q b => asks q = b) placed l) :
    List.Forall₂ R placed (confirmed last l) := by
  induction h generalizing last with
  | nil => exact .nil
  | cons hb _ ih =>
    obtain ⟨hq, hrest⟩ := List.forall_mem_cons.mp hacc
    rw [confirmed_cons, ← hb]
    exact .cons (hq _) (ih _ hrest)

theorem forall₂_refused (requests : List ρ)
    (href : ∀ q ∈ requests, ∀ b, (asks q).refusal? = some b → R q b) :
    List.Forall₂ R (requests.filter fun q => !(asks q).refusal?.isNone)
      (refused (requests.map asks)) := by
  induction requests with
  | nil => exact .nil
  | cons q rest ih =>
    obtain ⟨hq, hrest⟩ := List.forall_mem_cons.mp href
    cases hr : (asks q).refusal? with
    | none =>
      rw [List.map_cons, refused_cons_of_none hr, List.filter_cons_of_neg (by simp [hr])]
      exact ih hrest
    | some b =>
      rw [List.map_cons, refused_cons_of_some hr, List.filter_cons_of_pos (by simp [hr])]
      exact .cons (hq b hr) (ih hrest)

variable (asks) in
/-- One breakpoint is returned for each request, though not in the order of the requests. -/
theorem exists_order (last : BreakpointId) (requests : List ρ)
    (hacc : ∀ q ∈ requests, (asks q).refusal? = none →
      ∀ id, R q { (asks q).inForce with id := some id })
    (href : ∀ q ∈ requests, ∀ b, (asks q).refusal? = some b → R q b) :
    ∃ order, order.Perm requests ∧ List.Forall₂ R order
      (confirmed last (inPlace (accepted (requests.map asks))) ++
        refused (requests.map asks)) := by
  have haccepted : accepted (requests.map asks) =
      (requests.filter fun q => (asks q).refusal?.isNone).map asks := List.filter_map
  have hself : List.Forall₂ (fun b q => asks q = b)
      (accepted (requests.map asks)) (requests.filter fun q => (asks q).refusal?.isNone) := by
    rw [haccepted, List.forall₂_map_left_iff, List.forall₂_same]
    exact fun _ _ => rfl
  obtain ⟨placed, hplaced, hperm⟩ := List.perm_comp_forall₂ (inPlace_perm _) hself
  refine ⟨placed ++ requests.filter fun q => !(asks q).refusal?.isNone, ?_, ?_⟩
  · exact (hperm.append_right _).trans (List.filter_append_perm _ requests)
  · refine List.rel_append (forall₂_confirmed last ?_ hplaced.flip) (forall₂_refused requests href)
    intro q hq id
    obtain ⟨hm, hn⟩ := List.mem_filter.mp (hperm.subset hq)
    exact hacc q hm (Option.isNone_iff_eq_none.mp hn) id

end Requests

namespace Registry

/-- Each request of a scope gets what the breakpoint that it asks for is judged to be. -/
theorem confirm_judges {ρ : Type} {scope : BreakpointScope} {attempt : ρ → Attempt Script.State}
    {condition hitCondition : ρ → Option String}
    (hr : ∀ q, (attempt q).breakpoint.Raised (condition q) (hitCondition q)) (requests : List ρ)
    (ha : ∀ a ∈ requests.map attempt, ∃ location, a.Asks location ∧ location.isIn scope = true)
    (r : Registry) (s : Script.State) :
    ∃ list next t order,
      Returns (r.confirm Script.context scope (requests.map attempt)) (s.clearBreakpoints scope)
        (list, next) t ∧
      order.Perm requests ∧
      List.Forall₂ (fun q b => (attempt q).breakpoint.Judged (condition q) (hitCondition q) b)
        order list := by
  obtain ⟨next, t, hconfirm⟩ := confirm_lists ha (Synced.not_isIn_cleared s scope) r
  obtain ⟨order, hperm, hjudged⟩ := exists_order (fun q => (attempt q).breakpoint) r.lastId requests
    (fun q _ hnone id => (hr q).judged_of_accepted hnone id)
    (fun q _ _ href => (hr q).judged_of_refused href)
  rw [Attempt.asked, List.map_map] at hconfirm
  exact ⟨_, next, t, order, hconfirm, hperm, hjudged⟩

/-- Verification is exact, whatever the registry and the engine hold: each request gets a breakpoint
that is verified if and only if its condition and its hit count are allowed, with a number if it is
and a message if it is not.  No advice is given on an expression. -/
theorem requests_verified_exactly (home : Home) (r : Registry) (s : Script.State) :
    (∀ (path : Path) (requests : List LineRequest), ∃ list next t order,
      Returns (r.setLine Script.context home path requests) s (list, next) t ∧
      order.Perm requests ∧
      List.Forall₂ (fun q b =>
        (Attempt.ofLine Script.context (home.expandHome path) q).breakpoint.Judged
          q.condition q.hitCondition b) order list) ∧
    (∀ requests : List CommandRequest, ∃ list next t order,
      Returns (r.setCommands Script.context requests) s (list, next) t ∧
      order.Perm requests ∧
      List.Forall₂ (fun q b =>
        (Attempt.ofCommand Script.context q).breakpoint.Judged q.condition q.hitCondition b)
        order list) ∧
    ∀ text, operatorHint text = none ∨ ∃ e, Expr.parse text = .error e := by
  refine ⟨?_, ?_, ?_⟩
  · intro path requests
    obtain ⟨list, next, t, order, hconfirm, hperm, hjudged⟩ := confirm_judges
      (fun q => ⟨rfl, rfl, rfl⟩) requests (Attempt.ofLine_asks (home.expandHome path) requests)
      (r.without (.file (home.expandHome path))) s
    refine ⟨list, { next with files := putFile (home.expandHome path) list next.files }, t, order,
      ?_, hperm, hjudged⟩
    exact Returns.bind rfl (hconfirm.bind (.pure _ _))
  · intro requests
    obtain ⟨list, next, t, order, hconfirm, hperm, hjudged⟩ := confirm_judges
      (fun q => ⟨rfl, rfl, rfl⟩) requests (Attempt.ofCommand_asks requests)
      { r with byEngineId := r.byEngineId.filter fun x => x.2.name.isNone } s
    refine ⟨list, { next with commands := list }, t, order, ?_, hperm, hjudged⟩
    exact Returns.bind rfl (hconfirm.bind (.pure _ _))
  · intro text
    cases hp : Expr.parse text with
    | error e => exact .inr ⟨e, rfl⟩
    | ok e => exact .inl (operatorHint_of_parse hp)

end Registry
end Stepwise
