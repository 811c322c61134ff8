import DocSplice.CommandLine.Arguments
import Mathlib.Data.List.Basic

/-!
# Which switches the arguments turn on

Reading an argument adds to the options at most the switches that its form turns on (`mem_of_read`), so that after
all arguments a switch is on exactly if one of them turns it on (`mem_of_readAll`). A switch without a letter is
turned on by its flag alone (`turnsOn_of_iff`): arguments that are accepted ask for a check, or for a trial run,
exactly if they contain its flag (`check_iff_mem`, `dryRun_iff_mem`).
-/
namespace DocSplice.CommandLine

/-- The argument that turns a switch on by its word. -/
def Switch.flag (s : Switch) : Text := '-' :: '-' :: s.word

/-- Whether an argument of this form turns the switch on. -/
def Form.TurnsOn : Form → Switch → Prop
  | .long word none, s => word = s.word
  | .letters cs, s => ∃ c ∈ cs, Known.ofLetter? c = some (.switch s)
  | _, _ => False

/-- A word that is the only one for an option is what stands for it. -/
theorem Known.ofWord?_eq_some_iff {word w : Text} {k : Known} (hw : ofWord? w = some k)
    (honly : ∀ e ∈ longOptions, e.2 = k → e.1 = w) : ofWord? word = some k ↔ word = w := by
  constructor
  · intro h
    obtain ⟨l, r, hsplit, -⟩ := List.lookup_eq_some_iff.1 h
    exact honly (word, k) (by simp [hsplit]) rfl
  · intro h
    rw [h, hw]

/-- A word stands for a switch if it is the word of the switch. -/
theorem Known.ofWord?_eq_switch_iff {word : Text} {s : Switch} :
    ofWord? word = some (.switch s) ↔ word = s.word := by
  cases s <;> exact ofWord?_eq_some_iff (by decide) (by decide)

/-- A word stands for a setting if it is the word of the setting. -/
theorem Known.ofWord?_eq_setting_iff {word : Text} {s : Setting} :
    ofWord? word = some (.setting s) ↔ word = s.word := by
  cases s <;> exact ofWord?_eq_some_iff (by decide) (by decide)

/-- What is known of a long option by its form. -/
theorem Form.eq_of_long {a word : Text} {value : Option Text} (h : Form.of a = .long word value) :
    a = '-' :: '-' :: word ++ value.elim [] ('=' :: ·) := by
  simp only [Form.of] at h
  split at h
  · cases h
  · next rest _ =>
    obtain ⟨rfl, rfl⟩ := Form.long.inj h
    have hrest := List.takeWhile_append_dropWhile (p := (· != '=')) (l := rest)
    cases hdrop : rest.dropWhile (· != '=') with
    | nil =>
        -- Without an equals sign the word is all of the argument.
        simpa [hdrop] using hrest.symm
    | cons c value =>
        have hhead := List.head_dropWhile_not (p := (· != '=')) (l := rest) (by simp [hdrop])
        have hc : c = '=' := by simpa [hdrop] using hhead
        rw [hdrop, hc] at hrest
        simpa using hrest.symm
  · cases h
  · cases h

namespace Progress

variable {p p' : Progress} {items items' : List Item} {k : Known} {s : Switch}

/-! ## One argument -/

theorem addSetting_eq_ok {st : Setting} {value : Text} (h : addSetting items st value = .ok items') :
    items' = items ++ [.set st value] := by
  rw [addSetting] at h
  split_ifs at h
  cases h
  rfl

theorem addSwitch_eq_ok {s' : Switch} (h : addSwitch items s' = .ok items') :
    items' = items ++ [.on s'] := by
  rw [addSwitch] at h
  split_ifs at h
  cases h
  rfl

/-- Options that were added with nothing left pending are those of the progress. -/
theorem eq_ok_of_map {r : Reading (List Item)} (h : r.map (Progress.mk · none) = .ok p') : r = .ok p'.items := by
  cases r with
  | error e => cases h
  | ok items =>
      cases h
      rfl

/-- Looking at a pending setting turns no switch on. -/
theorem mem_of_settle (h : p.settle = .ok items) : Item.on s ∈ items ↔ Item.on s ∈ p.items := by
  rw [settle] at h
  split at h
  · cases h
    rfl
  · cases h
  · rw [addSetting_eq_ok h]
    simp

/-- Meeting an option turns a switch on if the option is this switch. -/
theorem mem_of_meet (h : p.meet k = .ok p') :
    Item.on s ∈ p'.items ↔ Item.on s ∈ p.items ∨ k = .switch s := by
  rw [meet] at h
  split at h
  · cases h
  · next items hsettle =>
    rw [← mem_of_settle hsettle]
    cases k with
    | setting st =>
        cases h
        simp
    | switch s' =>
        rw [addSwitch_eq_ok (eq_ok_of_map h)]
        simp [eq_comm]
    | halt h' => cases h

/-- A value behind an equals sign turns no switch on. -/
theorem mem_of_meetWith {value : Text} (h : p.meetWith k value = .ok p') :
    Item.on s ∈ p'.items ↔ Item.on s ∈ p.items := by
  cases k with
  | switch s' => cases h
  | halt h' => cases h
  | setting st =>
      simp only [meetWith] at h
      split at h
      · cases h
      · next items hsettle =>
        rw [← mem_of_settle hsettle, addSetting_eq_ok (eq_ok_of_map h)]
        simp

/-- Letters turn on the switches that they stand for. -/
theorem mem_of_meetLetters {cs : List Char} (h : p.meetLetters cs = .ok p') :
    Item.on s ∈ p'.items ↔
      Item.on s ∈ p.items ∨ ∃ c ∈ cs, Known.ofLetter? c = some (.switch s) := by
  induction cs generalizing p with
  | nil =>
      cases h
      simp
  | cons c cs ih =>
      rw [meetLetters] at h
      split at h
      · cases h
      · next k hk =>
        split at h
        · cases h
        · next q hmeet =>
          rw [ih h, mem_of_meet hmeet]
          simp [hk, or_assoc]

/-- Reading an argument turns on the switches that its form turns on. -/
theorem mem_of_read {form : Form} (h : p.read form = .ok p') :
    Item.on s ∈ p'.items ↔ Item.on s ∈ p.items ∨ form.TurnsOn s := by
  cases form with
  | terminator =>
      cases h
      simp [Form.TurnsOn]
  | plain t =>
      rw [read] at h
      split at h
      · cases h
        simp [Form.TurnsOn]
      · cases h
  | letters cs => exact mem_of_meetLetters h
  | long word value =>
      cases hk : Known.ofWord? word with
      | none => simp [read, hk] at h
      | some k =>
          cases value with
          | some value =>
              simp only [read, hk] at h
              simp [mem_of_meetWith h, Form.TurnsOn]
          | none =>
              simp only [read, hk] at h
              rw [mem_of_meet h, Form.TurnsOn, ← Known.ofWord?_eq_switch_iff, hk, Option.some.injEq]

/-! ## All arguments -/

/-- After all arguments those switches are on that were on before or that an argument turns on. -/
theorem mem_of_readAll {args : List Text} (h : p.readAll args = .ok items) :
    Item.on s ∈ items ↔ Item.on s ∈ p.items ∨ ∃ a ∈ args, (Form.of a).TurnsOn s := by
  induction args generalizing p with
  | nil => simp [mem_of_settle (p := p) h]
  | cons a rest ih =>
      rw [readAll] at h
      split at h
      · next hform =>
        -- Nothing stands behind the terminator.
        split_ifs at h with hrest
        simp [mem_of_settle h, hform, hrest, Form.TurnsOn]
      · next form hform =>
        split at h
        · cases h
        · next q hread =>
          rw [ih h, mem_of_read hread]
          simp [or_assoc]

end Progress

/-! ## Flags -/

/-- A switch without a letter is turned on by its flag alone. -/
theorem Form.turnsOn_of_iff {a : Text} {s : Switch} (hs : s ≠ .verbose) :
    (Form.of a).TurnsOn s ↔ a = s.flag := by
  have hletters : ∀ c, Known.ofLetter? c ≠ some (.switch s) := by
    intro c hc
    simp only [Known.ofLetter?] at hc
    split at hc <;> simp_all
  constructor
  · intro h
    cases hform : Form.of a with
    | terminator => simp [hform, TurnsOn] at h
    | plain t => simp [hform, TurnsOn] at h
    | letters cs =>
        rw [hform] at h
        obtain ⟨c, -, hc⟩ := h
        exact absurd hc (hletters c)
    | long word value =>
        cases value with
        | some value => simp [hform, TurnsOn] at h
        | none =>
            rw [hform, TurnsOn] at h
            rw [Form.eq_of_long hform, h]
            simp [Switch.flag]
  · intro h
    subst h
    have hlong : Form.of s.flag = .long s.word none := by cases s <;> decide
    rw [hlong]
    rfl

namespace Arguments

variable {args : List Text} {a : Arguments}

/-- What is known of the options behind accepted arguments. -/
theorem exists_items_of_parse (h : parse args = .ok a) :
    ∃ items, Progress.readAll ⟨[], none⟩ args = .ok items ∧ a = ofItems items := by
  rw [parse] at h
  split at h
  · cases h
  · next items hitems =>
    split_ifs at h
    cases h
    exact ⟨items, hitems, rfl⟩

/-- Accepted arguments ask for a check exactly if they contain its flag. -/
theorem check_iff_mem (h : parse args = .ok a) : a.check = true ↔ Switch.check.flag ∈ args := by
  obtain ⟨items, hitems, rfl⟩ := exists_items_of_parse h
  simp [ofItems, Progress.mem_of_readAll hitems, Form.turnsOn_of_iff]

/-- Accepted arguments ask for a trial run exactly if they contain its flag. -/
theorem dryRun_iff_mem (h : parse args = .ok a) : a.dryRun = true ↔ Switch.dryRun.flag ∈ args := by
  obtain ⟨items, hitems, rfl⟩ := exists_items_of_parse h
  simp [ofItems, Progress.mem_of_readAll hitems, Form.turnsOn_of_iff]

/-- Accepted arguments that ask for a trial run ask for no check. -/
theorem check_eq_false_of_dryRun (h : parse args = .ok a) (hdryRun : a.dryRun = true) : a.check = false := by
  rw [parse] at h
  split at h
  · cases h
  · split_ifs at h with hboth
    cases h
    exact decide_eq_false fun hcheck => hboth ⟨of_decide_eq_true hdryRun, hcheck⟩

end Arguments
end DocSplice.CommandLine
