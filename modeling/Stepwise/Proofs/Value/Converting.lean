import Stepwise.Proofs.Text.Integer
import Stepwise.Value.Conversion

namespace Stepwise
open Text

/-- No two members have the same name in any case. -/
def Enumerations.Distinct (members : List String) : Prop :=
  members.Pairwise fun a b => ¬ sameName a b

theorem Enumerations.Distinct.find? {members : List String} {name : String}
    (h : Distinct members) (hm : name ∈ members) : members.find? (sameName · name) = some name := by
  induction members with
  | nil => cases hm
  | cons first rest ih =>
    obtain ⟨hfirst, hrest⟩ := List.pairwise_cons.mp h
    rcases List.mem_cons.mp hm with rfl | hm
    · exact List.find?_cons_of_pos (sameName_self _)
    · have hother : ¬ sameName first name := hfirst name hm
      rw [List.find?_cons_of_neg (p := (sameName · name)) hother]
      exact ih hrest hm

namespace Value

variable {enums : Enumerations} {type text name : String} {members : List String}

theorem coerce_string (ht : Primitive.ofName? text = some .string) (v : Value) :
    v.coerce enums text = .ok (.str v.text) := by
  rw [coerce, ht]

/-- An enumeration is consulted, unless a primitive type has its name. -/
theorem coerce_enumeration (hn : Primitive.ofName? type = none)
    (hm : enums.members? type = some members) (v : Value) :
    v.coerce enums type =
      match member? type members v with
      | some name => .ok (.enum type name)
      | none => .error (.notAMember v.text type members) := by
  cases hv : member? type members v <;> simp [coerce, hn, hm, hv]

theorem toInt_text (n : Int64) : (str (int n).text).toInt = .ok n := by
  simp only [text, toInt, trimBlanks_toString, readInt64?_toString]

theorem int_there_and_back (hi : Primitive.ofName? type = some .int)
    (ht : Primitive.ofName? text = some .string) (n : Int64) :
    ((int n).coerce enums text >>= (·.coerce enums type)) = .ok (int n) := by
  rw [coerce_string ht]
  change coerce enums type (str (int n).text) = .ok (int n)
  rw [coerce, hi]
  simp only [toInt_text, Except.map]

theorem member_there_and_back (hn : Primitive.ofName? type = none)
    (hm : enums.members? type = some members) (hd : Enumerations.Distinct members)
    (ht : Primitive.ofName? text = some .string) (hname : name ∈ members) :
    ((enum type name).coerce enums text >>= (·.coerce enums type)) = .ok (enum type name) := by
  rw [coerce_string ht]
  change coerce enums type (str name) = .ok (enum type name)
  have hfound : member? type members (str name) = some name := hd.find? hname
  rw [coerce_enumeration hn hm, hfound]

/-- A number stands for the member at its position, counted from zero. -/
theorem coerce_position (hn : Primitive.ofName? type = none)
    (hm : enums.members? type = some members) (n : Int64) :
    (∀ (i : Nat) (hi : i < members.length), n.toInt = i →
      (int n).coerce enums type = .ok (enum type members[i])) ∧
    (n.toInt < 0 ∨ members.length ≤ n.toInt →
      (int n).coerce enums type = .error (.notAMember (toString n.toInt) type members)) := by
  rw [coerce_enumeration hn hm, member?]
  constructor
  · intro i hi hni
    rw [if_pos (by omega), hni, Int.toNat_natCast, List.getElem?_eq_getElem hi]
  · intro hout
    have hnone : (if 0 ≤ n.toInt then members[n.toInt.toNat]? else none) = none := by
      split
      · exact List.getElem?_eq_none (by omega)
      · rfl
    rw [hnone]
    rfl

end Value
end Stepwise
