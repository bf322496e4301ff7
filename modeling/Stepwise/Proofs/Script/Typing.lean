import Stepwise.Proofs.Script.Activations
import Stepwise.Proofs.Value.Typing

namespace Stepwise

variable {enums : Enumerations}

/-- What a variable is given is of the type that is declared with it. -/
theorem Value.convert_isOf {v : Value} (hv : v.Proper enums) (declared : Option String) :
    Gives (fun w => w.Proper enums ∧ ∀ type, declared = some type → w.IsOf enums type)
      (v.convert enums declared) := by
  cases declared with
  | none => exact .ok ⟨hv, nofun⟩
  | some type =>
    intro w hw
    obtain ⟨hp, ht⟩ := v.coerce_isOf hv type w hw
    refine ⟨hp, ?_⟩
    rintro _ ⟨⟩
    exact ht

namespace Script

/-- A variable holds what it may: a value of the type that is declared with it. -/
structure Variable.WellTyped (enums : Enumerations) (v : Variable) : Prop where
  proper : v.value.Proper enums
  declared : ∀ type, v.declaredType = some type → v.value.IsOf enums type

/-- With these enumerations every variable holds what it may. -/
structure State.WellTyped (enums : Enumerations) (s : State) : Prop where
  known : s.enums = enums
  globals : ∀ v ∈ s.globals, v.WellTyped enums
  script : ∀ v ∈ s.scriptVariables, v.WellTyped enums
  locals : ∀ f ∈ s.frames, ∀ v ∈ f.locals.getD [], v.WellTyped enums

theorem Variable.WellTyped.untyped {name : String} {value : Value} {automatic : Bool}
    (h : value.Proper enums) : WellTyped enums { name, value, automatic } :=
  ⟨h, nofun⟩

theorem Variables.wellTyped_put {vars : Variables} (h : ∀ v ∈ vars, v.WellTyped enums)
    (name : String) {value : Value} {declaredType : Option String} (hv : value.Proper enums)
    (ht : ∀ type, declaredType = some type → value.IsOf enums type) :
    ∀ v ∈ vars.put name value declaredType, v.WellTyped enums := by
  fun_induction put with
  | case1 => exact List.forall_mem_singleton.mpr ⟨hv, ht⟩
  | case2 v rest =>
    exact List.forall_mem_cons.mpr ⟨⟨hv, ht⟩, (List.forall_mem_cons.mp h).2⟩
  | case3 v rest _ ih =>
    obtain ⟨hhead, hrest⟩ := List.forall_mem_cons.mp h
    exact List.forall_mem_cons.mpr ⟨hhead, ih hrest⟩

namespace State

variable {s t : State}

theorem wellTyped_iff : s.WellTyped enums ↔
    s.enums = enums ∧ ∀ storage, ∀ v ∈ s.held storage, v.WellTyped enums := by
  constructor
  · intro h
    refine ⟨h.known, fun storage => ?_⟩
    cases storage with
    | globals => exact h.globals
    | script => exact h.script
    | locals index =>
      rw [held]
      cases hf : s.frames[index]? with
      | none => exact List.forall_mem_nil _
      | some f => exact h.locals f (List.mem_of_getElem? hf)
  · rintro ⟨he, h⟩
    refine ⟨he, h .globals, h .script, fun f hf => ?_⟩
    obtain ⟨index, hi⟩ := List.mem_iff_getElem?.mp hf
    have hl := h (.locals index)
    rwa [held, hi] at hl

/-- Leaving functions takes variables away and adds none. -/
theorem WellTyped.leave (h : s.WellTyped enums) {frames : List Frame} (hs : frames <:+ s.frames) :
    WellTyped enums { s with frames } :=
  ⟨h.known, h.globals, h.script, fun f hf => h.locals f (hs.subset hf)⟩

theorem WellTyped.alike (h : s.WellTyped enums) (ht : s.Alike t) : t.WellTyped enums := by
  rw [ht]
  exact ⟨h.known, h.globals, h.script, h.locals⟩

theorem WellTyped.looked (h : s.WellTyped enums) (script : Loaded) (p : Point) :
    (s.looked script p).2.WellTyped enums := by
  refine WellTyped.alike ?_ (reach_alike _ _ _ _)
  unfold noteLine
  split
  · exact h
  · next f rest hf =>
    have hl := List.forall_mem_cons.mp (hf ▸ h.locals)
    exact ⟨h.known, h.globals, h.script, List.forall_mem_cons.mpr hl⟩

theorem enums_fixed : Fixed State.enums where
  alike h := by
    rw [h]
    rfl
  store h := by
    obtain ⟨_, _, _, _, _, _, rfl⟩ := exists_of_store h
    exact enums_withScope _ _ _

theorem WellTyped.scope (h : s.WellTyped enums) (scope : Scope) :
    Gives (fun vars => ∀ v ∈ vars, v.WellTyped enums) (s.scope scope) := by
  intro vars hs
  obtain ⟨_, rfl⟩ := scope_eq_ok_iff.mp hs
  exact (wellTyped_iff.mp h).2 _

theorem WellTyped.lookupChain (h : s.WellTyped enums) (scope : Scope) (qualifier : Option String) :
    Gives (fun chain => ∀ vars ∈ chain, ∀ v ∈ vars, v.WellTyped enums)
      (s.lookupChain scope qualifier) := by
  have globals : ∀ vars ∈ [s.globals], ∀ v ∈ vars, v.WellTyped enums :=
    List.forall_mem_singleton.mpr h.globals
  have script : ∀ vars ∈ [s.scriptVariables, s.globals], ∀ v ∈ vars, v.WellTyped enums :=
    List.forall_mem_cons.mpr ⟨h.script, globals⟩
  have unqualified : Gives (fun chain => ∀ vars ∈ chain, ∀ v ∈ vars, v.WellTyped enums)
      (s.lookupChain scope none) := by
    unfold State.lookupChain
    cases scope with
    | global => exact .ok globals
    | script index => exact .ok script
    | locals index =>
      dsimp only
      split
      · next vars hs => exact .ok (List.forall_mem_cons.mpr ⟨h.scope _ vars hs, script⟩)
      · exact .error _
      · exact .ok script
  cases qualifier with
  | none => exact unqualified
  | some q =>
    unfold State.lookupChain at unqualified ⊢
    dsimp only at unqualified ⊢
    split
    · exact .ok globals
    · split
      · exact .ok script
      · exact unqualified

theorem WellTyped.lookup (h : s.WellTyped enums) (scope : Scope) (name : String) :
    Gives (fun v => ∀ w, v = some w → w.Proper enums) (s.lookup scope name) := by
  refine (h.lookupChain scope _).bind fun chain hc => .ok ?_
  intro w hw
  obtain ⟨v, hv, rfl⟩ := Option.map_eq_some_iff.mp hw
  obtain ⟨vars, hm, hf⟩ := List.exists_of_findSome?_eq_some hv
  exact (hc vars hm v (List.mem_of_find?_eq_some hf)).proper

theorem WellTyped.evaluate (h : s.WellTyped enums) (scope : Scope) (source : String) :
    Gives (Value.Proper enums) (s.evaluate scope source) := by
  obtain rfl := h.known
  unfold State.evaluate
  split
  · exact .error _
  · next e _ => exact e.evaluate_proper fun name => h.lookup scope name

theorem WellTyped.store (h : s.WellTyped enums) {value : Value} (hv : value.Proper enums)
    (scope : Scope)
    (name : String) (declared : Option String) :
    Gives (WellTyped enums) (s.store scope name value declared) := by
  intro t ht
  obtain ⟨he, hvars⟩ := wellTyped_iff.mp h
  obtain ⟨vars, type, w, hs, _, hw, rfl⟩ := exists_of_store ht
  obtain ⟨hin, rfl⟩ := scope_eq_ok_iff.mp hs
  obtain ⟨hproper, hof⟩ := value.convert_isOf hv type w (he ▸ hw)
  refine wellTyped_iff.mpr ⟨(enums_withScope s scope _).trans he, fun storage => ?_⟩
  rw [held_withScope hin]
  split
  · exact Variables.wellTyped_put (hvars _) name hproper hof
  · exact hvars storage

theorem WellTyped.argumentValue (h : s.WellTyped enums) (token : String) :
    (s.argumentValue token).Proper enums := by
  unfold State.argumentValue
  split
  · next value hv => exact h.evaluate .global token value hv
  · trivial

theorem WellTyped.arguments (h : s.WellTyped enums) (l : List (String × String)) :
    Gives (fun vars => ∀ v ∈ vars, v.WellTyped enums) (s.arguments l) := by
  induction l with
  | nil => exact .ok (List.forall_mem_nil _)
  | cons argument rest ih =>
    exact (h.evaluate _ _).bind fun value hv => ih.bind fun others ho =>
      .ok (List.forall_mem_cons.mpr ⟨.untyped hv, ho⟩)

end State

namespace Binding

variable {value : String → Value} {params : List Parameter} {b : Binding}

/-- What the parameters are given. -/
def Given (b : Binding) (v : Value) : Prop :=
  some v ∈ b.bound

theorem given_give {index : Nat} {w v : Value} (h : (b.give index w).Given v) :
    b.Given v ∨ v = w := by
  rcases List.mem_or_eq_of_mem_set h with h | h
  · exact .inl h
  · exact .inr (Option.some.inj h)

theorem given_place {w v : Value} (h : (b.place params w).Given v) : b.Given v ∨ v = w := by
  unfold place at h
  split at h
  · exact given_give h
  · exact .inl h

theorem given_take (hvalue : ∀ token, (value token).Proper enums) (params : List Parameter)
    (arguments : List String) (h : ∀ v, b.Given v → v.Proper enums) :
    ∀ v, (take value params arguments b).Given v → v.Proper enums := by
  have given {b c : Binding} {w : Value} (h : ∀ v, b.Given v → v.Proper enums)
      (hw : w.Proper enums) (hc : ∀ v, c.Given v → b.Given v ∨ v = w) :
      ∀ v, c.Given v → v.Proper enums := by
    intro v hv
    rcases hc v hv with hv | rfl
    · exact h v hv
    · exact hw
  have switched : (Value.switch true).Proper enums := trivial
  have absent : Value.null.Proper enums := trivial
  fun_induction take value params arguments b with
  | case1 b => exact h
  | case2 token rest b _ ih => exact ih (given h (hvalue token) fun _ => given_place)
  | case3 token rest b i _ _ ih => exact ih (given h switched fun _ => given_give)
  | case4 token b i => exact given h absent fun _ => given_give
  | case5 token b i _ _ next rest ih => exact ih (given h (hvalue next) fun _ => given_give)

end Binding

theorem wellTyped_bind {value : String → Value} (hvalue : ∀ token, (value token).Proper enums)
    (params : List Parameter) (arguments : List String) :
    ∀ v ∈ bind value params arguments, v.WellTyped enums := by
  have hnone : ∀ v, Binding.Given ⟨params.map fun _ => none, []⟩ v → v.Proper enums := by
    simp [Binding.Given]
  have hb := Binding.given_take hvalue params arguments hnone
  refine List.forall_mem_append.mpr ⟨List.forall_mem_map.mpr ?_, ?_⟩
  · rintro ⟨p, v⟩ hm
    refine .untyped ?_
    cases v with
    | none =>
      rw [Option.getD_none]
      split <;> trivial
    | some w => exact hb w (List.of_mem_zip hm).2
  · exact List.forall_mem_singleton.mpr (.untyped trivial)

/-- A script starts with what it is given; its variables have no declared types yet. -/
theorem State.WellTyped.enter {s : State} (h : s.WellTyped enums) (script : Loaded)
    (arguments : List String) : (s.enter script arguments).WellTyped enums := by
  refine ⟨h.known, h.globals, List.forall_mem_append.mpr ⟨?_, ?_⟩, ?_⟩
  · split
    · exact List.forall_mem_singleton.mpr (.untyped trivial)
    · exact List.forall_mem_nil _
  · split
    · exact wellTyped_bind h.argumentValue _ _
    · exact List.forall_mem_nil _
  · exact List.forall_mem_singleton.mpr (List.forall_mem_nil _)

/-- Somewhere in the statement a variable is set to the value. -/
inductive Statement.Sets : Statement → Value → Prop
  | set (line : Nat) (name : String) (value : Value) : Sets (.set line name value) value
  | count {line : Nat} {name : String} {first last : Int} {body : List Statement}
    {statement : Statement} {value : Value} (hs : statement ∈ body) (hv : Sets statement value) :
    Sets (.count line name first last body) value
  | loop {line : Nat} {body : List Statement} {statement : Statement} {value : Value}
    (hs : statement ∈ body) (hv : Sets statement value) : Sets (.loop line body) value

/-- The statements set variables to no more than members of the known enumerations. -/
def ProperBlock (enums : Enumerations) (statements : List Statement) : Prop :=
  ∀ statement ∈ statements, ∀ value, statement.Sets value → value.Proper enums

structure Program.Proper (enums : Enumerations) (p : Program) : Prop where
  body : ProperBlock enums p.body
  functions : ∀ f ∈ p.functions, ProperBlock enums f.2

structure Catalog.Proper (enums : Enumerations) (c : Catalog) : Prop where
  files : ∀ file ∈ c.files, file.2.1.Proper enums
  inlines : ∀ script ∈ c.inlines, script.2.Proper enums

def Task.Proper (enums : Enumerations) : Task → Prop
  | .block statements => ProperBlock enums statements
  | .iterate _ _ _ _ body | .again _ body => ProperBlock enums body
  | .leave => True

def ProperTasks (enums : Enumerations) (tasks : List Task) : Prop :=
  ∀ task ∈ tasks, task.Proper enums

def Effect.Proper (enums : Enumerations) : Effect → Prop
  | .set _ value => value.Proper enums
  | _ => True

structure Point.Proper (enums : Enumerations) (p : Point) : Prop where
  effect : p.effect.Proper enums
  tasks : ProperTasks enums p.tasks

def Arrival.Proper (enums : Enumerations) : Arrival → Prop
  | .at p => p.Proper enums
  | .resting tasks => ProperTasks enums tasks
  | .done => True

/-- What is left of the run is as proper as its script. -/
def Run.Proper (enums : Enumerations) : Run → Prop
  | .launching _ => True
  | .running script _ tasks => script.program.Proper enums ∧ ProperTasks enums tasks
  | .checking script _ p | .resumed script p _ _ => script.program.Proper enums ∧ p.Proper enums

section

variable {catalog : Catalog} {script : Loaded} {tasks : List Task} {s t : State}
  {i j : Interrupts} {stepping : Stepping} {p : Point} {run : Run}

theorem properTasks_cons {task : Task} :
    ProperTasks enums (task :: tasks) ↔ task.Proper enums ∧ ProperTasks enums tasks :=
  List.forall_mem_cons

theorem ProperBlock.others {statement : Statement} {others : List Statement}
    (h : ProperBlock enums (statement :: others)) : ProperBlock enums others :=
  (List.forall_mem_cons.mp h).2

theorem ProperBlock.count {line : Nat} {name : String} {first last : Int}
    {body others : List Statement}
    (h : ProperBlock enums (.count line name first last body :: others)) :
    ProperBlock enums body :=
  fun _ hs value hv => h _ List.mem_cons_self value (.count hs hv)

theorem ProperBlock.loop {line : Nat} {body others : List Statement}
    (h : ProperBlock enums (.loop line body :: others)) : ProperBlock enums body :=
  fun _ hs value hv => h _ List.mem_cons_self value (.loop hs hv)

theorem ProperBlock.again {body : List Statement} (h : ProperBlock enums body) (line : Nat) :
    ProperBlock enums [.loop line body] := by
  refine List.forall_mem_singleton.mpr ?_
  rintro value (_ | _ | ⟨hs, hv⟩)
  exact h _ hs value hv

theorem mem_of_lookup_reverse {β : Type} {l : List (String × β)} {a : String} {b : β}
    (h : l.reverse.lookup a = some b) : (a, b) ∈ l := by
  obtain ⟨front, back, hl, _⟩ := List.lookup_eq_some_iff.mp h
  refine List.mem_reverse.mp (hl ▸ ?_)
  exact List.mem_append_right front List.mem_cons_self

theorem Program.Proper.function? {program : Program} (h : program.Proper enums) {name : String}
    {body : List Statement} (hf : program.function? name = some body) : ProperBlock enums body :=
  h.functions _ (mem_of_lookup_reverse hf)

theorem Catalog.Proper.find (h : catalog.Proper enums) {source : Source} {arguments : List String}
    (hf : catalog.find source = .ok (script, arguments)) : script.program.Proper enums := by
  unfold Catalog.find at hf
  split at hf
  · split at hf
    · next hfind =>
      cases hf
      exact h.files _ (List.mem_reverse.mp (List.mem_of_find?_eq_some hfind))
    · cases hf
  · split at hf
    · next hfind =>
      cases hf
      exact h.inlines _ (mem_of_lookup_reverse hfind)
    · cases hf

theorem arrive_proper (h : ProperTasks enums tasks) (frames : List Frame) :
    (arrive tasks frames).1.Proper enums := by
  fun_induction arrive tasks frames with
  | case1 => trivial
  | case2 rest frames ih => exact ih (properTasks_cons.mp h).2
  | case3 line body rest frames =>
    obtain ⟨hbody, hrest⟩ := properTasks_cons.mp h
    exact properTasks_cons.mpr ⟨ProperBlock.again hbody line, hrest⟩
  | case4 line name next last body rest frames =>
    obtain ⟨hbody, hrest⟩ := properTasks_cons.mp h
    exact ⟨trivial, properTasks_cons.mpr ⟨hbody, properTasks_cons.mpr ⟨hbody, hrest⟩⟩⟩
  | case5 line name next last body rest frames _ ih => exact ih (properTasks_cons.mp h).2
  | case6 rest frames ih => exact ih (properTasks_cons.mp h).2
  | case7 | case8 | case10 | case14 =>
    obtain ⟨hblock, hrest⟩ := properTasks_cons.mp h
    exact ⟨trivial, properTasks_cons.mpr ⟨ProperBlock.others hblock, hrest⟩⟩
  | case9 others rest frames line name value =>
    obtain ⟨hblock, hrest⟩ := properTasks_cons.mp h
    exact ⟨hblock _ List.mem_cons_self value (.set line name value),
      properTasks_cons.mpr ⟨ProperBlock.others hblock, hrest⟩⟩
  | case11 others rest frames line name first last body =>
    obtain ⟨hblock, hrest⟩ := properTasks_cons.mp h
    have hbody := ProperBlock.count hblock
    exact ⟨trivial, properTasks_cons.mpr ⟨hbody, properTasks_cons.mpr ⟨hbody,
      properTasks_cons.mpr ⟨ProperBlock.others hblock, hrest⟩⟩⟩⟩
  | case12 others rest frames line name first last body _ ih =>
    obtain ⟨hblock, hrest⟩ := properTasks_cons.mp h
    exact ih (properTasks_cons.mpr ⟨ProperBlock.others hblock, hrest⟩)
  | case13 others rest frames line body =>
    obtain ⟨hblock, hrest⟩ := properTasks_cons.mp h
    have hbody := ProperBlock.loop hblock
    exact ⟨trivial, properTasks_cons.mpr ⟨hbody, properTasks_cons.mpr ⟨hbody,
      properTasks_cons.mpr ⟨ProperBlock.others hblock, hrest⟩⟩⟩⟩

/-- After the step the variables hold what they may, and the run goes on with proper values. -/
structure Types (enums : Enumerations) (r : Signal Run × State × Interrupts) : Prop where
  state : r.2.1.WellTyped enums
  run : r.1.Keeps (Run.Proper enums)

theorem conclude_types (h : s.WellTyped enums) (outcome : Outcome) :
    Types enums (conclude s outcome) :=
  ⟨(h.leave (List.nil_suffix)).alike (.clear (.refl _)), trivial⟩

theorem proceed_types (h : s.WellTyped enums) (hp : script.program.Proper enums)
    (ht : ProperTasks enums tasks) (i : Interrupts) (stepping : Stepping) :
    Types enums (proceed s i script stepping tasks) := by
  have harrival := arrive_proper ht s.frames
  have hleft := h.leave (arrive_suffix tasks s.frames)
  unfold proceed
  split
  · next p frames ha =>
    rw [ha] at harrival hleft
    exact ⟨hleft, hp, harrival⟩
  · next tasks frames ha =>
    rw [ha] at harrival hleft
    exact ⟨hleft, hp, harrival⟩
  · next frames ha =>
    rw [ha] at hleft
    exact conclude_types hleft .completed

theorem carryOut_types (h : s.WellTyped enums) (hs : script.program.Proper enums)
    (hp : p.Proper enums) (hc : s.carryOut script i p = .on t j tasks) :
    t.WellTyped enums ∧ ProperTasks enums tasks := by
  obtain ⟨heffect, htasks⟩ := hp
  unfold State.carryOut at hc
  generalize p.effect = effect at heffect hc
  cases effect with
  | assign name expression declared =>
    obtain ⟨hx, rfl⟩ := ofExcept_eq_on hc
    obtain ⟨v, hv, hx⟩ := Except.bind_eq_ok_iff.mp hx
    exact ⟨h.store (h.evaluate _ _ v hv) _ _ _ t hx, htasks⟩
  | set name value =>
    obtain ⟨hx, rfl⟩ := ofExcept_eq_on hc
    exact ⟨h.store heffect _ _ _ t hx, htasks⟩
  | pass =>
    cases hc
    exact ⟨h, htasks⟩
  | command name =>
    dsimp only at hc
    split at hc
    · cases hc
      exact ⟨h, htasks⟩
    · split at hc
      · cases hc
      · cases hc
        exact ⟨h, htasks⟩
  | call function arguments =>
    dsimp only at hc
    split at hc
    · cases hc
    · next body hbody =>
      obtain ⟨hx, rfl⟩ := ofExcept_eq_on hc
      obtain ⟨bound, hb, hx⟩ := Except.bind_eq_ok_iff.mp hx
      cases hx
      have hbound := h.arguments arguments bound hb
      have hlocals : ∀ v ∈ { name := "$args", value := .array [], automatic := true } :: bound,
          v.WellTyped enums := List.forall_mem_cons.mpr ⟨.untyped trivial, hbound⟩
      exact ⟨⟨h.known, h.globals, h.script, List.forall_mem_cons.mpr ⟨hlocals, h.locals⟩⟩,
        properTasks_cons.mpr ⟨hs.function? hbody, properTasks_cons.mpr ⟨trivial, htasks⟩⟩⟩

theorem execute_types (h : s.WellTyped enums) (hs : script.program.Proper enums)
    (hp : p.Proper enums) (i : Interrupts) (stepping : Stepping) :
    Types enums (execute s i script stepping p) := by
  unfold execute
  cases hc : s.carryOut script i p with
  | on t j tasks =>
    obtain ⟨ht, htasks⟩ := carryOut_types h hs hp hc
    exact proceed_types ht hs htasks j stepping
  | failed message => exact conclude_types h _
  | crashed => exact ⟨h, trivial⟩

/-- One step of a run: no variable comes to hold what it may not. -/
theorem next_types (hc : catalog.Proper enums) (h : s.WellTyped enums) (hr : run.Proper enums)
    (i : Interrupts) : Types enums (next catalog run s i) := by
  cases run with
  | launching source =>
    simp only [next]
    split
    · exact ⟨h, trivial⟩
    · next script arguments hfind =>
      have hs := hc.find hfind
      have hbody : ProperTasks enums [.block script.program.body] :=
        List.forall_mem_singleton.mpr hs.body
      exact proceed_types (h.enter script arguments) hs hbody i .off
  | running script stepping tasks => exact proceed_types h hr.1 hr.2 i stepping
  | checking script stepping p =>
    have hl := h.looked script p
    rw [next, check_eq]
    split
    · exact conclude_types h .aborted
    · split
      · exact ⟨hl.alike (.clear (.refl _)), fun _ => hr⟩
      · exact execute_types hl hr.1 hr.2 i stepping
  | resumed script p depth action =>
    have hl : State.WellTyped enums { s with arena := [] } := h.alike (.clear (.refl s))
    cases action with
    | abort => exact conclude_types hl .aborted
    | _ => exact execute_types hl hr.1 hr.2 i _

end
end Script
end Stepwise
