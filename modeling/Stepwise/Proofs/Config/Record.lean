import Mathlib.Algebra.Group.Nat.Defs
import Mathlib.Data.List.Nodup
import Stepwise.Config.Basic

namespace Stepwise
open Toml

namespace Toml.Data.Same

variable {d e : Data} {es fs : Table} {key : String}

theorem eq_text {s : String} (h : d.Same (.text s)) : d = .text s := by
  cases h
  rfl

theorem eq_integer {n : Int} (h : d.Same (.integer n)) : d = .integer n := by
  cases h
  rfl

theorem exists_table (h : d.Same (.table fs)) :
    ∃ es, d = .table es ∧ (Data.table es).Same (.table fs) := by
  cases h with
  | refl => exact ⟨fs, rfl, .refl _⟩
  | table keys values => exact ⟨_, rfl, .table keys values⟩

/-- What is found under a key is the same in both tables. -/
theorem exists_lookup (h : (Data.table es).Same (.table fs)) (he : fs.lookup key = some e) :
    ∃ d, es.lookup key = some d ∧ d.Same e := by
  cases h with
  | refl => exact ⟨e, he, .refl e⟩
  | table keys values =>
    have hkey := keys key
    rw [he, Option.isSome_some] at hkey
    obtain ⟨d, hd⟩ := Option.isSome_iff_exists.mp hkey
    exact ⟨d, hd, values key d e hd he⟩

end Toml.Data.Same

/-- Whatever is the same as what was written for the value is read as the value. -/
def Codec.Recovers {β : Type} (k : Codec β) (b : β) : Prop :=
  ∀ d : Data, d.Same (k.write b) → k.read? d = some b

theorem Codec.text_recovers (s : String) : Codec.text.Recovers s := by
  intro d hd
  rw [hd.eq_text]
  rfl

theorem Codec.number_recovers {n : Nat} (hn : n < 2 ^ 64) : Codec.number.Recovers n := by
  intro d hd
  rw [hd.eq_integer]
  have hrange : 0 ≤ (n : Int) ∧ (n : Int) < Text.wordBound :=
    ⟨Int.natCast_nonneg n, Int.ofNat_lt.mpr hn⟩
  simp only [number, hrange, and_self, if_true, Int.toNat_natCast]

namespace Record

variable {α : Type} {fields : List (Field α)} {f : Field α} {a : α} {es : Table}

/-- The values of a record come back from a table: no two fields have one key, each value comes back
by itself, and together they are all that the record is. -/
structure Recovers (fields : List (Field α)) (default a : α) : Prop where
  distinct : (fields.map Field.key).Nodup
  values : ∀ f ∈ fields, f.codec.Recovers (f.get a)
  complete : fields.foldl (fun b f => f.set (f.get a) b) default = a

theorem lookup_toTable (hd : (fields.map Field.key).Nodup) (hf : f ∈ fields) (a : α) :
    (toTable fields a).lookup f.key = some (f.codec.write (f.get a)) := by
  induction fields with
  | nil => cases hf
  | cons g fields ih =>
    obtain ⟨hg, hd⟩ := List.nodup_cons.mp hd
    rw [toTable, List.map_cons, Field.entry, List.lookup_cons]
    rcases List.mem_cons.mp hf with rfl | hf
    · rw [beq_self_eq_true]
    · have hne : (f.key == g.key) = false :=
        beq_eq_false_iff_ne.mpr fun he => hg (he ▸ List.mem_map_of_mem hf)
      rw [hne]
      exact ih hd hf

theorem ofTable?_of_same {default : α} (h : Recovers fields default a)
    (hs : (Data.table es).Same (.table (toTable fields a))) :
    ofTable? fields es default = some a := by
  have taken : ∀ f ∈ fields, ∀ b, f.take? es b = some (f.set (f.get a) b) := by
    intro f hf b
    obtain ⟨d, hd, hsame⟩ := hs.exists_lookup (lookup_toTable h.distinct hf a)
    rw [Field.take?, hd]
    simp only [h.values f hf d hsame, Option.map_some]
  -- Field by field, from any record on.
  have fold (l : List (Field α)) (hl : ∀ f ∈ l, f ∈ fields) (b : α) :
      l.foldlM (fun b f => f.take? es b) b = some (l.foldl (fun b f => f.set (f.get a) b) b) := by
    induction l generalizing b with
    | nil => rfl
    | cons f l ih =>
      obtain ⟨hf, hl⟩ := List.forall_mem_cons.mp hl
      rw [List.foldlM_cons, taken f hf b, List.foldl_cons]
      exact ih hl _
  rw [ofTable?, fold fields (fun _ hf => hf), h.complete]

theorem Recovers.wellFormed {default : α} (h : Recovers fields default a)
    (hv : ∀ f ∈ fields, (f.codec.write (f.get a)).WellFormed) :
    (Data.table (toTable fields a)).WellFormed := by
  have hkeys : (toTable fields a).map Prod.fst = fields.map Field.key := List.map_map ..
  refine .table (hkeys ▸ h.distinct) fun e he => ?_
  obtain ⟨f, hf, rfl⟩ := List.mem_map.mp he
  exact hv f hf

end Record

theorem Codec.record_recovers {α : Type} {fields : List (Field α)} {default a : α}
    (h : Record.Recovers fields default a) : (Codec.record fields default).Recovers a := by
  intro d hd
  obtain ⟨es, rfl, hs⟩ := hd.exists_table
  exact Record.ofTable?_of_same h hs

theorem Literals.recovers (l : Literals) : Record.Recovers fields {} l where
  distinct := by decide
  values := by simp [fields, Codec.text_recovers]
  complete := rfl

theorem Literals.wellFormed (l : Literals) : (Data.table (Record.toTable fields l)).WellFormed := by
  refine l.recovers.wellFormed fun f hf => ?_
  simp only [fields, List.mem_cons, List.not_mem_nil, or_false] at hf
  rcases hf with rfl | rfl | rfl <;> exact .text _

/-- The time limit is an unsigned number of 64 bits. -/
theorem SessionSettings.recovers {s : SessionSettings} (hs : s.requestTimeoutMs < 2 ^ 64) :
    Record.Recovers fields {} s where
  distinct := by decide
  values := by simpa [fields] using Codec.number_recovers hs
  complete := rfl

theorem SessionSettings.wellFormed {s : SessionSettings} (hs : s.requestTimeoutMs < 2 ^ 63) :
    (Data.table (Record.toTable fields s)).WellFormed := by
  refine (recovers (by omega)).wellFormed fun f hf => ?_
  rw [List.mem_singleton.mp hf]
  exact .integer (by simp only [Text.signedBound]; omega) (by simp only [Text.signedBound]; omega)

namespace Config

variable {c : Config}

theorem recovers (hc : c.session.requestTimeoutMs < 2 ^ 64) : Record.Recovers fields {} c where
  distinct := by decide
  values := by
    have hsession := Codec.record_recovers (SessionSettings.recovers hc)
    have hformatting := Codec.record_recovers c.formatting.recovers
    simpa [fields] using ⟨hsession, hformatting⟩
  complete := rfl

theorem wellFormed (hc : c.session.requestTimeoutMs < 2 ^ 63) :
    (Data.table (Record.toTable fields c)).WellFormed := by
  refine (recovers (by omega)).wellFormed fun f hf => ?_
  simp only [fields, List.mem_cons, List.not_mem_nil, or_false] at hf
  rcases hf with rfl | rfl
  · exact SessionSettings.wellFormed hc
  · exact c.formatting.wellFormed

/-- With a library that follows some standard, settings are read back as they were printed. -/
theorem parse?_of_print? {library : Library} {standard : String → Table → Prop}
    (h : library.Follows standard) (hc : c.session.requestTimeoutMs < 2 ^ 63) {text : String}
    (hp : c.print? library = some text) : parse? library text = some c := by
  have hw := wellFormed hc
  obtain ⟨u, hu, hsame⟩ := h.reads hw (h.prints hw hp)
  rw [parse?, hu]
  exact Record.ofTable?_of_same (recovers (by omega)) hsame

end Config
end Stepwise
