import Stepwise.Proofs.Script.ReadingBack
import Stepwise.Proofs.Script.Transparency

namespace Stepwise

/-- The names that occur in an expression. -/
def Expr.names : Expr → List String
  | .int _ | .str _ => []
  | .var name => [name]
  | .negate e | .not e | .cast _ e => e.names
  | .binary _ left right => left.names ++ right.names

/-- An expression only depends on the variables that it names. -/
theorem Expr.evaluate_congr {env other : Environment} {e : Expr} (he : other.enums = env.enums)
    (h : ∀ name ∈ e.names, other.valueOf name = env.valueOf name) :
    e.evaluate other = e.evaluate env := by
  induction e with
  | int n | str s => rfl
  | var name =>
    have hn := h name (by simp [names])
    simp only [evaluate, hn]
  | negate e ih | not e ih =>
    simp only [evaluate, ih h]
  | cast type e ih => simp only [evaluate, ih h, he]
  | binary op left right ihl ihr =>
    have hl := ihl fun name hm => h name (List.mem_append_left _ hm)
    have hr := ihr fun name hm => h name (List.mem_append_right _ hm)
    simp only [evaluate, hl, hr]

namespace Script
open Text

variable {s t : State} {catalog : Catalog}

/-- The name is qualified as that of a variable of the script. -/
def namesScript (name : String) : Bool :=
  (splitQualifier name).1.any (sameName · "script")

/-- The argument is an expression in which a variable of the script is named. -/
def readsScript (token : String) : Bool :=
  match Expr.parse token with
  | .ok e => e.names.any namesScript
  | .error _ => false

theorem State.lookup_global_congr {name : String} (hg : t.globals = s.globals)
    (hn : namesScript name = false) : t.lookup .global name = s.lookup .global name := by
  have hc : t.lookupChain .global (splitQualifier name).1 =
      s.lookupChain .global (splitQualifier name).1 := by
    unfold namesScript at hn
    cases hq : (splitQualifier name).1 with
    | none => simp [State.lookupChain, hg]
    | some q =>
      have hs : sameName q "script" = false := by simpa [hq] using hn
      simp [State.lookupChain, hg, hs]
  simp only [State.lookup, hc]

theorem State.argumentValue_congr {token : String} (hg : t.globals = s.globals)
    (he : t.enums = s.enums) (hr : readsScript token = false) :
    t.argumentValue token = s.argumentValue token := by
  have hv : t.evaluate .global token = s.evaluate .global token := by
    unfold readsScript at hr
    unfold State.evaluate
    split
    · rfl
    · next e hp =>
      rw [hp] at hr
      refine Expr.evaluate_congr he fun name hm => ?_
      exact State.lookup_global_congr hg (by simpa using List.any_eq_false.mp hr name hm)
  rw [State.argumentValue, State.argumentValue, hv]

theorem Binding.take_congr {value other : String → Value} {params : List Parameter}
    {arguments : List String} (h : ∀ token ∈ arguments, other token = value token) (b : Binding) :
    take other params arguments b = take value params arguments b := by
  fun_induction take value params arguments b with
  | case1 => rfl
  | case2 b token rest hn ih =>
    obtain ⟨ht, hr⟩ := List.forall_mem_cons.mp h
    rw [take, hn, ht]
    exact ih hr
  | case3 b token rest i hn hi ih =>
    rw [take, hn]
    simp only [hi, if_true]
    exact ih (List.forall_mem_cons.mp h).2
  | case4 b token i hn hi =>
    rw [take, hn]
    simp only [hi, if_false, Bool.false_eq_true]
  | case5 b token i hn hi next rest ih =>
    obtain ⟨hnext, hr⟩ := List.forall_mem_cons.mp (List.forall_mem_cons.mp h).2
    rw [take, hn]
    simp only [hi, if_false, Bool.false_eq_true, hnext]
    exact ih hr

theorem bind_congr {value other : String → Value} {arguments : List String}
    (h : ∀ token ∈ arguments, other token = value token) (params : List Parameter) :
    bind other params arguments = bind value params arguments := by
  simp only [bind, Binding.take_congr h]

/-- A script is entered in the same way, whatever variables and frames were left. -/
theorem State.enter_congr {arguments : List String}
    (h : ∀ token ∈ arguments, readsScript token = false) (t : State) (scriptVariables : Variables)
    (frames : List Frame) (script : Loaded) :
    State.enter { t with scriptVariables, frames } script arguments = t.enter script arguments := by
  have hv : ∀ token ∈ arguments,
      State.argumentValue { t with scriptVariables, frames } token = t.argumentValue token :=
    fun token ht => argumentValue_congr rfl rfl (h token ht)
  simp only [State.enter, bind_congr hv]

/-- The safe points that were passed and, once a script has ended, how and with which variables. -/
def Account.outward (a : Account) : List Passage × Option Conclusion :=
  match a.view with
  | .underway _ _ => (a.passed, none)
  | .ended e => (a.passed, some e)

theorem Stance.journey_congr {stance : Stance} (h : stance.turn catalog t = stance.turn catalog s)
    (n : Nat) : stance.journey catalog t (n + 1) = stance.journey catalog s (n + 1) := by
  induction n with
  | zero => simp only [journey, h]
  | succ n ih =>
    cases hr : (stance.journey catalog s (n + 1)).reached with
    | on u w => rw [journey_succ hr, journey_succ (ih ▸ hr), ih]
    | ended e => rw [journey_succ_of_ended hr, journey_succ_of_ended (ih ▸ hr), ih]

/-- States that are alike to a script give the same accounts. -/
theorem Stance.accounts_of_alike (h : s.Alike t) (source : Source) (a : Account) :
    (∃ n, (Stance.launching source).account catalog t n = a) ↔
      ∃ n, (Stance.launching source).account catalog s n = a := by
  let p : Progress (scriptEngine catalog) Unit := ⟨Run.launching source, (), t, {}⟩
  have hf := (Handler.idle_answers (scriptEngine catalog)).not_felledAfter (fun _ => false) p
  have hrun {u : State} (hu : u.Alike t) := (Progress.Stands.launching source () hu rfl :
    p.Stands (.launching source) u).accounts Handler.idle_observes (fun _ => false) hf a
  exact (hrun (.refl t)).symm.trans (hrun h)

theorem Stance.outward_of_found {source : Source} {script : Loaded} {arguments : List String}
    (hf : catalog.find source = .ok (script, arguments))
    (ha : ∀ token ∈ arguments, readsScript token = false) (hg : t.globals = s.globals)
    (he : t.enums = s.enums) (n : Nat) :
    ∃ m, ((Stance.launching source).account catalog s m).outward =
      ((Stance.launching source).account catalog t n).outward := by
  cases n with
  | zero => exact ⟨0, rfl⟩
  | succ n =>
    -- The other state with the leftovers of this one is alike to this one.
    let u : State := { t with scriptVariables := s.scriptVariables, frames := s.frames }
    have hu : s.Alike u := by
      simp only [State.Alike, State.dressed, u, hg, he]
    have hturn : (Stance.launching source).turn catalog t =
        (Stance.launching source).turn catalog u := by
      simp only [turn, hf, u, State.enter_congr ha]
    obtain ⟨m, hm⟩ := (accounts_of_alike hu source _).mp ⟨n + 1, rfl⟩
    refine ⟨m, ?_⟩
    rw [hm, account, account, journey_congr hturn]

theorem Stance.account_of_ended {stance : Stance} {e : Conclusion}
    (h : stance.turn catalog s = .ended e) (n : Nat) :
    stance.account catalog s (n + 1) = ⟨[], .ended e⟩ := by
  have hj : stance.journey catalog s (n + 1) = ⟨[], .ended e⟩ := by
    induction n with
    | zero =>
      rw [journey_succ rfl, h]
      rfl
    | succ n ih => rw [journey_succ_of_ended (by rw [ih]), ih]
  rw [account, hj]
  rfl

theorem Stance.turn_of_not_found {source : Source} {message : String}
    (hf : catalog.find source = .error message) (s : State) :
    (Stance.launching source).turn catalog s = s.finished (.failed message) := by
  simp only [turn, hf]

end Script

open Script

variable {catalog : Catalog} {η θ : Type}

/-- What is seen of a run is what is seen of the script that it starts, if its handler does not end
it. -/
theorem Handler.Observes.accounts {handler : Handler (scriptEngine catalog) η}
    (h : handler.Observes) {memory : η} {breaks : Nat → Bool} {source : Source} {s : State}
    (hf : ∀ n, ¬ Progress.FelledAfter handler breaks ⟨Run.launching source, memory, s, {}⟩ n)
    (a : Account) :
    (∃ n, Progress.account handler breaks ⟨Run.launching source, memory, s, {}⟩ n = a) ↔
      ∃ k, (Stance.launching source).account catalog s k = a :=
  (Progress.Stands.launching source memory (.refl s) rfl).accounts h breaks hf a

/-- Runs do not depend on what earlier runs have left.  Two states with the same globals and
enumerations may differ in all else: a script whose arguments do not name variables of the script
passes the same safe points from both, ends in the same way if it ends, and leaves the same
variables, whatever its handlers do that neither assigns, aborts nor takes the thread down.  A
script that is not there fails at once with the same message, and the variables of the last script
stay. -/
theorem Handler.Observes.independent {one : Handler (scriptEngine catalog) η}
    {other : Handler (scriptEngine catalog) θ} (h : one.Observes) (ho : other.Observes)
    (memory : η) (memory' : θ) (breaks breaks' : Nat → Bool) (source : Source) {s t : State}
    (hg : t.globals = s.globals) (he : t.enums = s.enums)
    (hone : ∀ n, ¬ Progress.FelledAfter one breaks ⟨Run.launching source, memory, s, {}⟩ n)
    (hother : ∀ n, ¬ Progress.FelledAfter other breaks' ⟨Run.launching source, memory', t, {}⟩ n) :
    let first := Progress.account one breaks ⟨Run.launching source, memory, s, {}⟩
    let second := Progress.account other breaks' ⟨Run.launching source, memory', t, {}⟩
    (∀ script arguments, catalog.find source = .ok (script, arguments) →
      (∀ token ∈ arguments, readsScript token = false) →
      (∀ n, ∃ m, (second m).outward = (first n).outward) ∧
        ∀ n, ∃ m, (first m).outward = (second n).outward) ∧
    ∀ message, catalog.find source = .error message →
      (∃ n, first n =
        ⟨[], .ended (.finished (.failed message) s.globals s.scriptVariables)⟩) ∧
      ∃ n, second n =
        ⟨[], .ended (.finished (.failed message) t.globals t.scriptVariables)⟩ := by
  intro first second
  have hfirst := h.accounts hone
  have hsecond := ho.accounts hother
  refine ⟨fun script arguments hf ha => ⟨fun n => ?_, fun n => ?_⟩, fun message hf => ⟨?_, ?_⟩⟩
  · obtain ⟨k, hk⟩ := (hfirst _).mp ⟨n, rfl⟩
    obtain ⟨j, hj⟩ := Stance.outward_of_found hf ha hg.symm he.symm k
    obtain ⟨m, hm⟩ := (hsecond _).mpr ⟨j, rfl⟩
    exact ⟨m, (congrArg Account.outward hm).trans (hj.trans (congrArg Account.outward hk))⟩
  · obtain ⟨k, hk⟩ := (hsecond _).mp ⟨n, rfl⟩
    obtain ⟨j, hj⟩ := Stance.outward_of_found hf ha hg he k
    obtain ⟨m, hm⟩ := (hfirst _).mpr ⟨j, rfl⟩
    exact ⟨m, (congrArg Account.outward hm).trans (hj.trans (congrArg Account.outward hk))⟩
  · exact (hfirst _).mpr ⟨1, Stance.account_of_ended (Stance.turn_of_not_found hf s) 0⟩
  · exact (hsecond _).mpr ⟨1, Stance.account_of_ended (Stance.turn_of_not_found hf t) 0⟩

/-- A counting script, first run by itself, then debugged after a run that was left in a
function. -/
theorem Handler.prying_independent :
    let c : Catalog := { files := [(⟨"/a.ps1"⟩, .counting 2, false)] }
    let source : Source := .file ⟨"/a.ps1"⟩ ["5"]
    let s : State := .initial [] []
    let t : State :=
      { s with
        scriptVariables := [{ name := "$x", value := .int 1 }]
        frames := [⟨"f", none, 3, some []⟩, ⟨"<ScriptBlock>", none, 7, none⟩]
        breakpoints := [⟨1, .line ⟨"/a.ps1"⟩ 4 none, none, none, 2⟩]
        lastId := 1
        arena := [.array []] }
    let first := Progress.account (.idle (scriptEngine c)) (fun _ => false)
      ⟨Run.launching source, (), s, {}⟩
    let second := Progress.account (.prying c) (· == 3) ⟨Run.launching source, (), t, {}⟩
    (Handler.idle (scriptEngine c)).Observes ∧ (Handler.prying c).Observes ∧
      (Handler.idle (scriptEngine c)).Answers ∧ (Handler.prying c).Answers ∧
      t.globals = s.globals ∧ t.enums = s.enums ∧ readsScript "5" = false ∧
      (∀ n, ∃ m, (second m).outward = (first n).outward) ∧
        ∀ n, ∃ m, (first m).outward = (second n).outward := by
  intro c source s t first second
  have hr : readsScript "5" = false := by cbv
  have hf : c.find source = .ok (⟨.counting 2, some ⟨"/a.ps1"⟩, false⟩, ["5"]) := by cbv
  have hi := idle_answers (scriptEngine c)
  have hp := prying_answers c
  have h := (idle_observes.independent (prying_observes c) () () (fun _ => false) (· == 3) source
    (s := s) (t := t) rfl rfl (hi.not_felledAfter _ _) (hp.not_felledAfter _ _)).1 _ _ hf
    (by simpa using hr)
  exact ⟨idle_observes, prying_observes c, hi, hp, rfl, rfl, hr, h⟩

/-- An argument that names a variable of the script is read among those of the last run. -/
theorem leftover_read_by_argument :
    let c : Catalog := { files := [(⟨"/b.ps1"⟩, ⟨[⟨"$A", false⟩], [], []⟩, false)] }
    let source : Source := .file ⟨"/b.ps1"⟩ ["$script:x"]
    let t : State := { scriptVariables := [{ name := "$x", value := .int 1 }] }
    let first := Progress.account (.idle (scriptEngine c)) (fun _ => false)
      ⟨Run.launching source, (), {}, {}⟩
    let second := Progress.account (.idle (scriptEngine c)) (fun _ => false)
      ⟨Run.launching source, (), t, {}⟩
    ¬ ∀ n, ∃ m, (second m).outward = (first n).outward := by
  intro c source t first second hall
  have hn : IsVariableName "$script:x" :=
    ⟨"script:x".toList, rfl, by decide, List.all_eq_true.mp (by decide +kernel)⟩
  have hc : Expr.constant? "$script:x" = none := by cbv
  have hx : (State.argumentValue {} "$script:x" = .null) ∧
      t.argumentValue "$script:x" = .int 1 := by
    simp only [State.argumentValue, State.evaluate_variableName hn hc]
    constructor <;> cbv
  let left (v : Value) : Conclusion := .finished .completed []
    [{ name := "$PSScriptRoot", value := .str "/", automatic := true }, { name := "$A", value := v },
      { name := "$args", value := .array [], automatic := true }]
  have turn {s : State} {v : Value} (hg : s.globals = []) (hv : s.argumentValue "$script:x" = v) :
      (Stance.launching source).turn c s = .ended (left v) := by
    have hb : ∀ token ∈ ["$script:x"], s.argumentValue token = (fun _ => v) token := by
      simpa using hv
    have hf : c.find source =
        .ok (⟨⟨[⟨"$A", false⟩], [], []⟩, some ⟨"/b.ps1"⟩, false⟩, ["$script:x"]) := by cbv
    have hbound : bind (fun _ => v) [⟨"$A", false⟩] ["$script:x"] =
        [{ name := "$A", value := v }, { name := "$args", value := .array [], automatic := true }] := by
      rfl
    have hroot : (⟨"/b.ps1"⟩ : Path).parent? = some ⟨"/"⟩ := by cbv
    simp [Stance.turn, hf, State.enter, bind_congr hb, hbound, hroot, State.goOn, arrive,
      State.finished, hg, left]
  have hidle : (Handler.idle (scriptEngine c)).Observes := Handler.idle_observes
  have hf := (Handler.idle_answers (scriptEngine c)).not_felledAfter (fun _ => false)
  have hfirst := (hidle.accounts (hf ⟨Run.launching source, (), {}, {}⟩) _).mpr
    ⟨1, Stance.account_of_ended (turn rfl hx.1) 0⟩
  obtain ⟨n, hfirst⟩ : ∃ n, first n = _ := hfirst
  obtain ⟨m, hm⟩ := hall n
  obtain ⟨k, hsecond⟩ := (hidle.accounts (hf ⟨Run.launching source, (), t, {}⟩) (second m)).mp
    ⟨m, rfl⟩
  rw [hfirst, ← hsecond] at hm
  cases k with
  | zero => cases hm
  | succ k =>
    rw [Stance.account_of_ended (turn rfl hx.2)] at hm
    cases hm

end Stepwise
