import Mathlib
import Stepwise.Config.Store
import Stepwise.Proofs.Config.Record
import Stepwise.Proofs.FileTree
import Stepwise.Proofs.Toml.Printing

namespace Stepwise.Config
open FileTree Toml

variable {library : Library} {c : Config} {t t' : FileTree} {p : Path}

/-- What is loaded once the settings have been saved, by what stands at the path then. -/
def loadedFrom (c : Config) (p : Path) : Option FileEntry → Except LoadError Config
  | some (.file _ access) => if access.readable then .ok c else .error (.unreadable p)
  | _ => .ok {}

theorem load_of_parse? {text : String} (ht : parse? library text = some c)
    (h : ∀ content access, t.find? p = some (.file content access) → content = text.toUTF8) :
    load library t p = loadedFrom c p (t.find? p) := by
  have htext : String.fromUTF8? text.toUTF8 = some text := by
    simp only [String.fromUTF8?, String.toUTF8_eq_toByteArray]
    exact dif_pos text.isValidUTF8
  unfold load loadedFrom
  cases he : t.find? p with
  | none => rfl
  | some e =>
    cases e with
    | file content access =>
      obtain rfl := h content access he
      simp only [htext, ht]
    | directory | special accepts => rfl

/-- Either the directories are not made, or the file is written among what has been there. -/
theorem save_cases (library : Library) (c : Config) (t : FileTree) (p : Path) :
    ∃ t', t.Keeps t' ∧ (t.Ordinary → t'.Ordinary) ∧
      ((∃ parent, c.save library t p = (.error (.noDirectory parent), t')) ∨
        c.save library t p = save.write library p c t') := by
  unfold save
  split
  · exact ⟨t, .refl t, id, .inr rfl⟩
  · next parent _ =>
    have hkeeps := keeps_makeDirectories (t := t) parent
    have hordinary (h : t.Ordinary) := h.makeDirectories parent
    split
    · next t' hmade =>
      rw [hmade] at hkeeps hordinary
      exact ⟨t', hkeeps, hordinary, .inr rfl⟩
    · next t' hmade =>
      rw [hmade] at hkeeps hordinary
      exact ⟨t', hkeeps, hordinary, .inl ⟨parent, rfl⟩⟩

/-- Settings that have been saved are loaded again from a file that can be read.  Whatever is not a
regular file gives the defaults, and a file that cannot be read gives an error. -/
theorem load_of_written {standard : String → Table → Prop} (h : library.Follows standard)
    (hc : c.session.requestTimeoutMs < 2 ^ 63) (hw : save.write library p c t = (.ok (), t')) :
    load library t' p = loadedFrom c p (t'.find? p) ∧
      (∀ old access, t.find? p = some (.file old access) →
        ∃ content, t'.find? p = some (.file content access)) ∧
      (t.Ordinary → load library t' p = .ok c) := by
  unfold save.write at hw
  split at hw
  · cases hw
  · next text htext =>
    split at hw
    · cases hw
    · next hwrite =>
      cases hw
      have hload := load_of_parse? (parse?_of_print? h hc htext) fun _ _ he =>
        content_of_write? hwrite he
      refine ⟨hload, ?_⟩
      rcases find?_write? hwrite with ⟨hnone, hnew⟩ | ⟨old, access, hold, hnew⟩ | ⟨_, hs, rfl⟩
      · refine ⟨fun old access hold => ?_, fun ho => ?_⟩
        · cases hnone.symm.trans hold
        · rw [hload, hnew, loadedFrom, ho.fresh]
          rfl
      · refine ⟨fun old' access' hold' => ?_, fun ho => ?_⟩
        · cases hold.symm.trans hold'
          exact ⟨_, hnew⟩
        · rcases ho.find? hold with hd | ⟨_, _, he, hr⟩
          · cases hd
          · cases he
            rw [hload, hnew, loadedFrom, hr]
            rfl
      · refine ⟨fun old access hold => ?_, fun ho => ?_⟩
        · cases hs.symm.trans hold
        · rcases ho.find? hs with hd | ⟨_, _, he, _⟩
          · cases hd
          · cases he

/-- With any library that follows some standard: settings that have been saved are loaded again
exactly if a regular file that can be read stands at the path, as it does in every tree of such
files; a file is used as before.  Settings that the library refuses are not saved, and all stays as
it was. -/
theorem load_save {standard : String → Table → Prop} (h : library.Follows standard) (c : Config)
    (t : FileTree) (p : Path) :
    let done := c.save library t p
    (c.session.requestTimeoutMs ≤ 2 ^ 63 - 1 → done.1 = .ok () →
      load library done.2 p = loadedFrom c p (done.2.find? p) ∧
        (∀ old access, t.find? p = some (.file old access) →
          ∃ content, done.2.find? p = some (.file content access)) ∧
        (t.Ordinary → load library done.2 p = .ok c)) ∧
    (c.print? library = none →
      done.1 ≠ .ok () ∧ ∀ q e, t.find? q = some e → done.2.find? q = some e) := by
  intro done
  obtain ⟨t', hkeeps, hordinary, ⟨parent, hs⟩ | hs⟩ := save_cases library c t p
  · rw [show done = _ from hs]
    exact ⟨nofun, fun _ => ⟨nofun, fun q e => hkeeps.find?⟩⟩
  · refine ⟨fun hc hok => ?_, fun hn => ?_⟩
    · have hw : save.write library p c t' = (.ok (), done.2) := by
        rw [← hs, ← hok]
      obtain ⟨hload, hused, hback⟩ := load_of_written h (by omega) hw
      exact ⟨hload, fun old access hold => hused old access (hkeeps.find? hold),
        fun ho => hback (hordinary ho)⟩
    · have hw : done = (.error .unwritable, t') := by
        rw [show done = _ from hs, save.write, hn]
      rw [hw]
      exact ⟨nofun, fun q e => hkeeps.find?⟩

/-- A file in a directory at the top. -/
def shelf : FileTree where
  entries := [([['s'], ['c']], .file "old".toUTF8 {}), ([['s']], .directory)]

/-- Settings with the greatest time limit that can be written, and texts that need quoting. -/
def quoted : Config :=
  ⟨⟨2 ^ 63 - 1⟩, ⟨"", "\x22\x22\x22\\ \x27\x27\x27", "é\x01\n\r"⟩⟩

theorem shelf_ordinary : shelf.Ordinary where
  entries {l e} h := by
    unfold get? shelf at h
    split at h
    · cases h
      exact .inl rfl
    · simp only [List.lookup_cons, List.lookup_nil] at h
      split at h
      · cases h
        exact .inr ⟨_, _, rfl, rfl⟩
      · split at h
        · cases h
          exact .inl rfl
        · cases h
  fresh := rfl

/-- Documents have no integers of more than 64 bits with the sign. -/
theorem print?_plain_of_large (h : 2 ^ 63 ≤ c.session.requestTimeoutMs) :
    c.print? .plain = none := by
  have hn : ¬(0 ≤ (c.session.requestTimeoutMs : Int) ∧
      (c.session.requestTimeoutMs : Int) < Text.signedBound) := by
    simp only [Text.signedBound]
    omega
  have hd : Setting.ofData? (.integer c.session.requestTimeoutMs) = none := by
    simp only [Setting.ofData?, hn, if_false]
  simp [print?, Library.plain, Record.toTable, fields, Field.entry, Codec.record,
    SessionSettings.fields, Codec.number, Group.ofPair?, hd]

theorem load_save_shelf :
    Library.plain.Follows (fun text t => Library.plain.read? text = some t) ∧ shelf.Ordinary ∧
      load .plain (quoted.save .plain shelf ⟨"/s/c"⟩).2 ⟨"/s/c"⟩ = .ok quoted ∧
      (Config.save .plain ⟨⟨2 ^ 63⟩, {}⟩ shelf ⟨"/s/c"⟩).2.find? ⟨"/s/c"⟩ =
        some (.file "old".toUTF8 {}) := by
  have hf := Library.plain_follows
  have ho := shelf_ordinary
  have hparent : Path.parent? ⟨"/s/c"⟩ = some ⟨"/s"⟩ := rfl
  have hmade : shelf.makeDirectories ⟨"/s"⟩ = (true, shelf) := rfl
  have hwritten (content : ByteArray) : (shelf.write? ⟨"/s/c"⟩ content).isSome := rfl
  have hprinted : (quoted.print? .plain).isSome := by cbv
  have hrefused : Config.print? .plain ⟨⟨2 ^ 63⟩, {}⟩ = none := print?_plain_of_large le_rfl
  have hlimit : quoted.session.requestTimeoutMs ≤ 2 ^ 63 - 1 := le_rfl
  have hold : shelf.find? ⟨"/s/c"⟩ = some (.file "old".toUTF8 {}) := rfl
  obtain ⟨text, htext⟩ := Option.isSome_iff_exists.mp hprinted
  obtain ⟨t, ht⟩ := Option.isSome_iff_exists.mp (hwritten text.toUTF8)
  have hover : (quoted.save .plain shelf ⟨"/s/c"⟩).1 = .ok () := by
    simp only [save, hparent, hmade, save.write, htext, ht]
  exact ⟨hf, ho, ((load_save hf _ shelf _).1 hlimit hover).2.2 ho,
    ((load_save hf _ shelf _).2 hrefused).2 _ _ hold⟩

/-- The device that takes whatever is written. -/
def devices : FileTree where
  entries :=
    [([['d', 'e', 'v'], ['n', 'u', 'l', 'l']], .special true), ([['d', 'e', 'v']], .directory)]

/-- What is written to a device is not kept: the defaults are loaded. -/
theorem saved_to_device :
    let c : Config := { session := ⟨250⟩ }
    let done := c.save .plain devices ⟨"/dev/null"⟩
    Library.plain.Follows (fun text t => Library.plain.read? text = some t) ∧
      c.session.requestTimeoutMs ≤ 2 ^ 63 - 1 ∧ done.1 = .ok () ∧
      load .plain done.2 ⟨"/dev/null"⟩ = .ok {} ∧
      (.ok {} : Except LoadError Config) ≠ .ok c := by
  intro c done
  have hparent : Path.parent? ⟨"/dev/null"⟩ = some ⟨"/dev"⟩ := rfl
  have hmade : devices.makeDirectories ⟨"/dev"⟩ = (true, devices) := rfl
  have hwritten (content : ByteArray) : devices.write? ⟨"/dev/null"⟩ content = some devices := rfl
  have hprinted : (c.print? .plain).isSome := by cbv
  have hdevice : devices.find? ⟨"/dev/null"⟩ = some (.special true) := rfl
  obtain ⟨text, htext⟩ := Option.isSome_iff_exists.mp hprinted
  have hdone : done = (.ok (), devices) := by
    simp only [done, save, hparent, hmade, save.write, htext, hwritten]
  rw [hdone]
  refine ⟨Library.plain_follows, by decide, rfl, ?_, by decide⟩
  rw [load, hdevice]

end Stepwise.Config
