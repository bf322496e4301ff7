import Stepwise.Text.Integer

namespace Stepwise.Toml

/-- What a document holds under a key.  Of fractions, dates and times no more is kept than that they
are such: no setting is one. -/
inductive Data where
  | text (s : String)
  | integer (n : Int)
  | boolean (b : Bool)
  | fraction
  | moment
  | array (items : List Data)
  | table (entries : List (String × Data))
deriving Repr

abbrev Table := List (String × Data)

namespace Data

/-- The same to those who look keys up: in a table the order of the keys does not count. -/
inductive Same : Data → Data → Prop
  | refl (d : Data) : Same d d
  | array {xs ys : List Data} (length : xs.length = ys.length)
    (items : ∀ (i : Nat) x y, xs[i]? = some x → ys[i]? = some y → Same x y) :
    Same (.array xs) (.array ys)
  | table {es fs : Table} (keys : ∀ key, (es.lookup key).isSome = (fs.lookup key).isSome)
    (values : ∀ key d e, es.lookup key = some d → fs.lookup key = some e → Same d e) :
    Same (.table es) (.table fs)

/-- The integers have 64 bits and the keys of each table are distinct. -/
inductive WellFormed : Data → Prop
  | text (s : String) : WellFormed (.text s)
  | integer {n : Int} (low : -Text.signedBound ≤ n) (high : n < Text.signedBound) :
    WellFormed (.integer n)
  | boolean (b : Bool) : WellFormed (.boolean b)
  | fraction : WellFormed .fraction
  | moment : WellFormed .moment
  | array {items : List Data} (all : ∀ d ∈ items, WellFormed d) : WellFormed (.array items)
  | table {entries : Table} (keys : (entries.map Prod.fst).Nodup)
    (all : ∀ e ∈ entries, WellFormed e.2) : WellFormed (.table entries)

end Data

/-- A library for documents: it prints tables, or refuses to, and reads texts, or refuses them. -/
structure Library where
  print? : Table → Option String
  read? : String → Option Table

/-- A standard says what tables the texts are documents of.  A library follows it if what it prints
is a document of the table, and what it reads of a document is the table. -/
structure Library.Follows (library : Library) (standard : String → Table → Prop) : Prop where
  prints {t : Table} {text : String} (wellFormed : (Data.table t).WellFormed)
    (printed : library.print? t = some text) : standard text t
  reads {t : Table} {text : String} (wellFormed : (Data.table t).WellFormed)
    (document : standard text t) : ∃ u, library.read? text = some u ∧ (Data.table u).Same (.table t)

end Stepwise.Toml
