import DocSplice.Proofs.Arguments
import Mathlib.Data.List.Nodup

/-!
# The grammar of the arguments

Options are spelled one behind another, and a terminator may end them (`Writes`). Reading arguments that are written
in this way adds their options in turn (`readAll_of_writes`), and nothing else can be read to its end
(`writes_of_readAll`). Hence exactly those arguments are accepted in which each option is given at most once and which
do not ask for a trial run and a check together, and they ask for what their options say, in whatever order these
stand (`parse_grammar`).
-/
namespace DocSplice.CommandLine

/-- The values of a setting: the names of the policies, or any path but the empty one. -/
def Setting.Admits : Setting → Text → Prop
  | policy, value => ∃ p : Policy, value = p.name
  | _, value => value ≠ []

/-- The argument that a setting is called by. -/
def Setting.flag (s : Setting) : Text := '-' :: '-' :: s.word

/-- A text that can be an argument of its own and no option: it does not begin with a dash, or is nothing else. -/
def StandsAlone (t : Text) : Prop := t = ['-'] ∨ t.head? ≠ some '-'

/-- The spellings of an option. -/
inductive Spells : List Text → Item → Prop where
  | next (s : Setting) {value : Text} (hvalue : s.Admits value) (halone : StandsAlone value) :
      Spells [s.flag, value] (.set s value)
  | joined (s : Setting) {value : Text} (hvalue : s.Admits value) : Spells [s.flag ++ '=' :: value] (.set s value)
  | word (s : Switch) : Spells [s.flag] (.on s)
  | letter : Spells [['-', 'v']] (.on .verbose)

/-- The arguments spell the options one behind another, and may end in a terminator. -/
inductive Writes : List Text → List Item → Prop where
  | nil : Writes [] []
  | terminator : Writes [['-', '-']] []
  | cons {words args : List Text} {item : Item} {items : List Item} (spelled : Spells words item)
      (behind : Writes args items) : Writes (words ++ args) (item :: items)

/-- The option that was given, whatever its value. -/
def Item.option : Item → Setting ⊕ Switch
  | set s _ => .inl s
  | on s => .inr s

/-- Options that go together: each is given at most once, and a trial run excludes a check. -/
structure Permitted (items : List Item) : Prop where
  once : (items.map Item.option).Nodup
  apart : ¬(Item.on .dryRun ∈ items ∧ Item.on .check ∈ items)

/-- The arguments ask for what the options say, and for the standard where these say nothing. -/
structure Arguments.Carries (a : Arguments) (items : List Item) : Prop where
  readme : ∀ path, Item.set .readme path ∈ items → a.config.readme = .ofText path
  standardReadme : (∀ path, Item.set .readme path ∉ items) → a.config.readme = Config.standard.readme
  examples : ∀ path, Item.set .examples path ∈ items → a.config.examples = .ofText path
  standardExamples : (∀ path, Item.set .examples path ∉ items) → a.config.examples = Config.standard.examples
  policy : ∀ p : Policy, Item.set .policy p.name ∈ items → a.config.policy = p
  standardPolicy : (∀ name, Item.set .policy name ∉ items) → a.config.policy = Config.standard.policy
  dryRun : a.dryRun = true ↔ Item.on .dryRun ∈ items
  check : a.check = true ↔ Item.on .check ∈ items
  json : a.json = true ↔ Item.on .json ∈ items
  verbose : a.verbose = true ↔ Item.on .verbose ∈ items

variable {a value : Text} {args : List Text} {item : Item} {items done final : List Item} {s : Setting}
  {p p' : Progress}

/-! ## Forms of arguments -/

theorem Setting.accepts_iff : s.accepts value = true ↔ s.Admits value := by
  cases s with
  | readme => simp [accepts, Admits]
  | examples => simp [accepts, Admits]
  | policy =>
      rw [accepts, Admits, Option.isSome_iff_exists]
      constructor
      · intro h
        obtain ⟨p, hp⟩ := h
        have hname : (p.name == value) = true := List.find?_some (p := fun p : Policy => p.name == value) hp
        exact ⟨p, (beq_iff_eq.1 hname).symm⟩
      · intro h
        obtain ⟨p, rfl⟩ := h
        exact ⟨p, Policy.ofName?_name p⟩

/-- An argument is no option if it can stand alone. -/
theorem Form.of_eq_plain_iff {t : Text} : Form.of a = .plain t ↔ a = t ∧ StandsAlone a := by
  rcases a with _ | ⟨c, _ | ⟨d, cs⟩⟩
  · simp [Form.of, StandsAlone]
  · by_cases hc : c = '-' <;> simp [Form.of, StandsAlone, hc]
  · by_cases hc : c = '-'
    · have halone : ¬StandsAlone (c :: d :: cs) := by simp [StandsAlone, hc]
      simp only [Form.of, halone, and_false, iff_false]
      split <;> simp_all
    · simp [Form.of, StandsAlone, hc]

theorem Form.eq_of_letters {cs : List Char} (h : Form.of a = .letters cs) : a = '-' :: cs ∧ cs ≠ [] := by
  simp only [Form.of] at h
  split at h
  · cases h
  · cases h
  · cases h
    simp
  · cases h

theorem Form.eq_of_terminator (h : Form.of a = .terminator) : a = ['-', '-'] := by
  simp only [Form.of] at h
  split at h <;> simp_all

theorem Known.ofWord?_settingWord (s : Setting) : ofWord? s.word = some (.setting s) :=
  ofWord?_eq_setting_iff.2 rfl

theorem Known.ofWord?_switchWord (s : Switch) : ofWord? s.word = some (.switch s) :=
  ofWord?_eq_switch_iff.2 rfl

theorem Form.of_settingFlag (s : Setting) : Form.of s.flag = .long s.word none := by
  cases s <;> decide

theorem Form.of_switchFlag (s : Switch) : Form.of s.flag = .long s.word none := by
  cases s <;> decide

theorem Form.of_joined (s : Setting) (value : Text) :
    Form.of (s.flag ++ '=' :: value) = .long s.word (some value) := by
  cases s <;> rfl

/-! ## Adding options -/

/-- The value of an option is one that its setting admits. -/
def Item.Admitted : Item → Prop
  | .set s value => s.Admits value
  | .on _ => True

theorem Spells.admitted {words : List Text} (h : Spells words item) : item.Admitted := by
  cases h with
  | next _ hvalue _ => exact hvalue
  | joined _ hvalue => exact hvalue
  | word | letter => trivial

theorem Writes.admitted (h : Writes args items) : ∀ item ∈ items, item.Admitted := by
  induction h with
  | nil | terminator => simp
  | cons spelled _ ih => exact List.forall_mem_cons.2 ⟨spelled.admitted, ih⟩

namespace Progress

/-- Adds an option. -/
def add (items : List Item) : Item → Reading (List Item)
  | .set s value => addSetting items s value
  | .on s => addSwitch items s

/-- An option is added if it is new. -/
theorem add_eq_ok_iff (h : item.Admitted) :
    add done item = .ok final ↔ item.option ∉ done.map Item.option ∧ final = done ++ [item] := by
  cases item with
  | set s value =>
      rw [add, addSetting, if_pos (Setting.accepts_iff.2 h)]
      split_ifs with hold
      · obtain ⟨item, hitem, heq⟩ := List.any_eq_true.1 hold
        cases item with
        | on => cases heq
        | set s' value' =>
            obtain rfl := beq_iff_eq.1 heq
            have hmem : (Item.set s' value).option ∈ done.map Item.option := List.mem_map.2 ⟨_, hitem, rfl⟩
            simp [hmem]
      · have hmem : (Item.set s value).option ∉ done.map Item.option := by
          intro hmem
          obtain ⟨item, hitem, heq⟩ := List.mem_map.1 hmem
          cases item with
          | on => cases heq
          | set s' value' =>
              cases heq
              exact hold (List.any_eq_true.2 ⟨_, hitem, beq_self_eq_true s⟩)
        simp [hmem, eq_comm]
  | on s =>
      have hmem : (Item.on s).option ∈ done.map Item.option ↔ Item.on s ∈ done := by
        rw [List.mem_map]
        constructor
        · intro h
          obtain ⟨item, hitem, heq⟩ := h
          cases item with
          | set => cases heq
          | on s' =>
              cases heq
              exact hitem
        · intro h
          exact ⟨_, h, rfl⟩
      rw [add, addSwitch, hmem]
      split_ifs with hold <;> simp [hold, eq_comm]

/-- Options are added one behind another if each is given at most once. -/
theorem foldlM_add_eq_ok_iff (h : ∀ item ∈ items, item.Admitted) (hdone : (done.map Item.option).Nodup) :
    items.foldlM add done = .ok final ↔ ((done ++ items).map Item.option).Nodup ∧ final = done ++ items := by
  induction items generalizing done with
  | nil => simp [pure, Except.pure, hdone, eq_comm]
  | cons item items ih =>
      obtain ⟨hitem, hitems⟩ := List.forall_mem_cons.1 h
      have hshift : done ++ item :: items = done ++ [item] ++ items := by simp
      rw [List.foldlM_cons, hshift]
      by_cases hold : item.option ∈ done.map Item.option
      · have hrefused : ∀ final, add done item ≠ .ok final := fun final hadd =>
          ((add_eq_ok_iff hitem).1 hadd).1 hold
        have hnodup : ¬((done ++ [item] ++ items).map Item.option).Nodup := by
          rw [List.map_append, List.map_append]
          intro hnodup
          exact List.disjoint_of_nodup_append hnodup.of_append_left hold (by simp)
        cases hadd : add done item with
        | error e => exact iff_of_false (by rintro ⟨⟩) fun h => hnodup h.1
        | ok final => exact absurd hadd (hrefused final)
      · have hdone' : ((done ++ [item]).map Item.option).Nodup := by
          rw [List.map_append]
          exact hdone.append (by simp) (by simpa using hold)
        rw [(add_eq_ok_iff hitem).2 ⟨hold, rfl⟩]
        exact ih hitems hdone'

/-! ## Arguments that are written -/

/-- An argument that is not the terminator is read before those behind it. -/
theorem readAll_cons (hne : Form.of a ≠ .terminator) (args : List Text) :
    p.readAll (a :: args) = p.read (Form.of a) >>= fun p' => p'.readAll args := by
  rw [readAll]
  split
  · next hform => exact absurd hform hne
  · cases p.read (Form.of a) <;> rfl

theorem readAll_settingFlag (p : Progress) (s : Setting) (args : List Text) :
    p.readAll (s.flag :: args) = p.settle >>= fun done => readAll ⟨done, some (s, none)⟩ args := by
  rw [readAll, Form.of_settingFlag]
  simp only [read, Known.ofWord?_settingWord, meet]
  cases p.settle <;> rfl

theorem readAll_value (done : List Item) (s : Setting) (halone : StandsAlone value) (args : List Text) :
    readAll ⟨done, some (s, none)⟩ (value :: args) = readAll ⟨done, some (s, some value)⟩ args := by
  rw [readAll, Form.of_eq_plain_iff.2 ⟨rfl, halone⟩]
  rfl

theorem meet_switch (p : Progress) (s : Switch) :
    p.meet (.switch s) = p.settle >>= fun done => (addSwitch done s).map (⟨·, none⟩) := by
  rw [meet]
  cases p.settle <;> rfl

theorem meetWith_setting (p : Progress) (s : Setting) (value : Text) :
    p.meetWith (.setting s) value = p.settle >>= fun done => (addSetting done s value).map (⟨·, none⟩) := by
  rw [meetWith]
  cases p.settle <;> rfl

/-- An argument that adds one option and leaves nothing pending does so before those behind it are read. -/
theorem readAll_cons_of_read {form : Form} {f : List Item → Reading (List Item)} (hform : Form.of a = form)
    (hne : form ≠ .terminator) (hread : p.read form = p.settle >>= fun done => (f done).map (⟨·, none⟩))
    (args : List Text) :
    p.readAll (a :: args) = p.settle >>= fun done => f done >>= fun done => readAll ⟨done, none⟩ args := by
  subst hform
  rw [readAll_cons hne, hread]
  cases p.settle with
  | error h => rfl
  | ok done => cases hadd : f done <;> simp [hadd, bind, Except.bind, Except.map]

theorem readAll_joined (p : Progress) (s : Setting) (value : Text) (args : List Text) :
    p.readAll ((s.flag ++ '=' :: value) :: args) =
      p.settle >>= fun done => addSetting done s value >>= fun done => readAll ⟨done, none⟩ args := by
  refine readAll_cons_of_read (Form.of_joined s value) (by simp) ?_ args
  simp only [read, Known.ofWord?_settingWord, meetWith_setting]

theorem readAll_switchFlag (p : Progress) (s : Switch) (args : List Text) :
    p.readAll (s.flag :: args) =
      p.settle >>= fun done => addSwitch done s >>= fun done => readAll ⟨done, none⟩ args := by
  refine readAll_cons_of_read (Form.of_switchFlag s) (by simp) ?_ args
  simp only [read, Known.ofWord?_switchWord, meet_switch]

theorem readAll_letter (p : Progress) (args : List Text) :
    p.readAll (['-', 'v'] :: args) =
      p.settle >>= fun done => addSwitch done .verbose >>= fun done => readAll ⟨done, none⟩ args := by
  have hform : Form.of ['-', 'v'] = .letters ['v'] := rfl
  refine readAll_cons_of_read hform (by simp) ?_ args
  simp only [read, meetLetters, Known.ofLetter?]
  cases hmeet : p.meet (.switch .verbose) <;> rw [← meet_switch, hmeet]

/-- **Arguments that are written add their options one behind another**, once what is pending has been looked at. -/
theorem readAll_of_writes (h : Writes args items) (p : Progress) :
    p.readAll args = p.settle >>= fun done => items.foldlM add done := by
  induction h generalizing p with
  | nil => cases h : p.settle <;> simp [readAll, h, bind, Except.bind, pure, Except.pure]
  | terminator => cases h : p.settle <;> simp [readAll, Form.of, h, bind, Except.bind, pure, Except.pure]
  | cons spelled _ ih =>
      cases spelled with
      | next s _ halone =>
          simp only [List.cons_append, List.nil_append, readAll_settingFlag, readAll_value _ _ halone, ih]
          rfl
      | joined s _ =>
          simp only [List.cons_append, List.nil_append, readAll_joined, ih]
          rfl
      | word s =>
          simp only [List.cons_append, List.nil_append, readAll_switchFlag, ih]
          rfl
      | letter =>
          simp only [List.cons_append, List.nil_append, readAll_letter, ih]
          rfl

/-! ## Arguments that are read to their end -/

/-- The arguments that the pending setting came with. -/
def pendingWords (p : Progress) : List Text :=
  match p.pending with
  | none => []
  | some (s, none) => [s.flag]
  | some (s, some value) => [s.flag, value]

/-- The pending value came as an argument of its own. -/
def CameAlone (p : Progress) : Prop := ∀ s value, p.pending = some (s, some value) → StandsAlone value

theorem cameAlone_of_none (items : List Item) : CameAlone ⟨items, none⟩ := by
  intro s value h
  cases h

/-- What is pending is an option that is spelled, if it can be settled. -/
theorem writes_pendingWords (hsettle : p.settle = .ok done) (halone : p.CameAlone) (h : Writes args items) :
    ∃ items, Writes (p.pendingWords ++ args) items := by
  obtain ⟨before, _ | ⟨s, _ | value⟩⟩ := p
  · exact ⟨items, h⟩
  · cases hsettle
  · simp only [settle, addSetting] at hsettle
    split_ifs at hsettle with _ haccepts
    exact ⟨_, .cons (.next s (Setting.accepts_iff.1 haccepts) (halone s value rfl)) h⟩

theorem meet_switch_eq_ok {s : Switch} (h : p.meet (.switch s) = .ok p') :
    ∃ done, p.settle = .ok done ∧ Item.on s ∉ done ∧ p' = ⟨done ++ [.on s], none⟩ := by
  rw [meet_switch] at h
  cases hsettle : p.settle with
  | error e =>
      rw [hsettle] at h
      cases h
  | ok done =>
      rw [hsettle] at h
      by_cases hold : Item.on s ∈ done
      · simp [bind, Except.bind, addSwitch, hold, Except.map] at h
      · simp only [bind, Except.bind, addSwitch, hold, if_false, Except.map, Except.ok.injEq] at h
        exact ⟨done, rfl, hold, h.symm⟩

theorem meet_setting_eq_ok (h : p.meet (.setting s) = .ok p') :
    ∃ done, p.settle = .ok done ∧ p' = ⟨done, some (s, none)⟩ := by
  rw [meet] at h
  cases hsettle : p.settle with
  | error e => simp [hsettle] at h
  | ok done =>
      simp only [hsettle, Except.ok.injEq] at h
      exact ⟨done, rfl, h.symm⟩

theorem meetWith_eq_ok {k : Known} (h : p.meetWith k value = .ok p') :
    ∃ s done, k = .setting s ∧ p.settle = .ok done ∧ s.Admits value ∧ p' = ⟨done ++ [.set s value], none⟩ := by
  cases k with
  | switch => cases h
  | halt => cases h
  | setting s =>
      simp only [meetWith] at h
      split at h
      · cases h
      · next done hsettle =>
        simp only [addSetting] at h
        split_ifs at h with hold haccepts
        · cases h
        · cases h
          exact ⟨s, done, rfl, hsettle, Setting.accepts_iff.1 haccepts, rfl⟩
        · cases h

theorem meet_halt_ne_ok (h : Halt) : p.meet (.halt h) ≠ .ok p' := by
  rw [meet]
  cases p.settle <;> simp

/-- Reading letters, the first one turns the log on. -/
theorem meetLetters_cons_eq_ok {c : Char} {cs : List Char} (h : p.meetLetters (c :: cs) = .ok p') :
    c = 'v' ∧ ∃ q, p.meet (.switch .verbose) = .ok q ∧ q.meetLetters cs = .ok p' := by
  rw [meetLetters] at h
  split at h
  · cases h
  · next k hk =>
    split at h
    · cases h
    · next q hmeet =>
      simp only [Known.ofLetter?] at hk
      split at hk <;> cases hk
      · exact ⟨rfl, q, hmeet, h⟩
      · exact absurd hmeet (meet_halt_ne_ok _)
      · exact absurd hmeet (meet_halt_ne_ok _)

/-- Reading letters, there is only one of them. -/
theorem eq_of_meetLetters {cs : List Char} (hne : cs ≠ []) (h : p.meetLetters cs = .ok p') :
    cs = ['v'] ∧ p.meet (.switch .verbose) = .ok p' := by
  obtain ⟨c, cs, rfl⟩ := List.exists_cons_of_ne_nil hne
  obtain ⟨rfl, q, hmeet, hrest⟩ := meetLetters_cons_eq_ok h
  cases cs with
  | nil =>
      cases hrest
      exact ⟨rfl, hmeet⟩
  | cons c cs =>
      -- The second letter would turn the log on again.
      obtain ⟨-, r, hagain, -⟩ := meetLetters_cons_eq_ok hrest
      obtain ⟨done, -, -, rfl⟩ := meet_switch_eq_ok hmeet
      obtain ⟨done', hsettle, hnew, -⟩ := meet_switch_eq_ok hagain
      cases hsettle
      exact absurd (List.mem_append_right done List.mem_cons_self) hnew

/-- An argument that is read spells what it leaves pending, behind what was pending before it. -/
theorem writes_of_read (halone : p.CameAlone) (hform : Form.of a ≠ .terminator)
    (hread : p.read (Form.of a) = .ok p') : p'.CameAlone ∧
      ∀ rest items, Writes (p'.pendingWords ++ rest) items → ∃ items, Writes (p.pendingWords ++ a :: rest) items := by
  cases hcase : Form.of a with
  | terminator => exact absurd hcase hform
  | plain t =>
      obtain ⟨rfl, ht⟩ := Form.of_eq_plain_iff.1 hcase
      rw [hcase, read] at hread
      obtain ⟨before, _ | ⟨s, _ | value⟩⟩ := p
      · cases hread
      · cases hread
        refine ⟨?_, fun rest items hitems => ⟨items, hitems⟩⟩
        rintro s value ⟨⟩
        exact ht
      · cases hread
  | letters cs =>
      obtain ⟨rfl, hne⟩ := Form.eq_of_letters hcase
      rw [hcase, read] at hread
      obtain ⟨rfl, hmeet⟩ := eq_of_meetLetters hne hread
      obtain ⟨done, hsettle, -, rfl⟩ := meet_switch_eq_ok hmeet
      exact ⟨cameAlone_of_none _, fun rest items hitems => writes_pendingWords hsettle halone (.cons .letter hitems)⟩
  | long word value =>
      obtain rfl := Form.eq_of_long hcase
      rw [hcase] at hread
      cases hk : Known.ofWord? word with
      | none => simp [read, hk] at hread
      | some k =>
          cases value with
          | none =>
              simp only [read, hk] at hread
              cases k with
              | halt h => exact absurd hread (meet_halt_ne_ok h)
              | setting s =>
                  obtain rfl := Known.ofWord?_eq_setting_iff.1 hk
                  obtain ⟨done, hsettle, rfl⟩ := meet_setting_eq_ok hread
                  refine ⟨by rintro s value ⟨⟩, fun rest items hitems => ?_⟩
                  exact writes_pendingWords hsettle halone (by simpa [pendingWords, Setting.flag] using hitems)
              | switch s =>
                  obtain rfl := Known.ofWord?_eq_switch_iff.1 hk
                  obtain ⟨done, hsettle, -, rfl⟩ := meet_switch_eq_ok hread
                  refine ⟨cameAlone_of_none _, fun rest items hitems => ?_⟩
                  have hwritten : Writes (s.flag :: rest) (.on s :: items) := .cons (.word s) hitems
                  exact writes_pendingWords hsettle halone (by simpa [Switch.flag] using hwritten)
          | some value =>
              simp only [read, hk] at hread
              obtain ⟨s, done, rfl, hsettle, hvalue, rfl⟩ := meetWith_eq_ok hread
              obtain rfl := Known.ofWord?_eq_setting_iff.1 hk
              refine ⟨cameAlone_of_none _, fun rest items hitems => ?_⟩
              have hwritten : Writes ((s.flag ++ '=' :: value) :: rest) (.set s value :: items) :=
                .cons (.joined s hvalue) hitems
              exact writes_pendingWords hsettle halone (by simpa [Setting.flag] using hwritten)

/-- **What is read to its end is written**, together with what was pending before it. -/
theorem exists_writes (halone : p.CameAlone) (h : p.readAll args = .ok final) :
    ∃ items, Writes (p.pendingWords ++ args) items := by
  induction args generalizing p with
  | nil => exact writes_pendingWords h halone .nil
  | cons a rest ih =>
      rw [readAll] at h
      split at h
      · next hform =>
        split_ifs at h with hrest
        rw [Form.eq_of_terminator hform, hrest]
        exact writes_pendingWords h halone .terminator
      · next form hform =>
        split at h
        · cases h
        · next p' hread =>
          obtain ⟨halone', hwrites⟩ := writes_of_read halone hform hread
          obtain ⟨items, hitems⟩ := ih halone' h
          exact hwrites rest items hitems

end Progress

/-! ## What the options say -/

namespace Arguments

variable {a : Arguments}

/-- The value of a setting is the one that its option gives. -/
theorem valueOf?_eq_some_iff (h : (items.map Item.option).Nodup) :
    valueOf? items s = some value ↔ Item.set s value ∈ items := by
  induction items with
  | nil => simp [valueOf?]
  | cons item items ih =>
      rw [List.map_cons, List.nodup_cons] at h
      specialize ih h.2
      rw [valueOf?] at ih ⊢
      cases item with
      | on s' => simpa [List.findSome?_cons] using ih
      | set s' value' =>
          by_cases hs : s' = s
          · subst hs
            have hother : Item.set s' value ∉ items := fun hmem => h.1 (List.mem_map.2 ⟨_, hmem, rfl⟩)
            simp [hother, eq_comm]
          · have hother : s ≠ s' := Ne.symm hs
            simpa [List.findSome?_cons, hs, hother] using ih

theorem valueOf?_eq_none_iff : valueOf? items s = none ↔ ∀ value, Item.set s value ∉ items := by
  rw [valueOf?, List.findSome?_eq_none_iff]
  constructor
  · intro h value hmem
    simpa using h _ hmem
  · intro h item hitem
    cases item with
    | on => rfl
    | set s' value =>
        refine if_neg ?_
        rintro rfl
        exact h value hitem

/-- The options carry over to the configuration and the switches. -/
theorem carries_ofItems (h : (items.map Item.option).Nodup) : (ofItems items).Carries items where
  readme path hpath := by simp [config, ofItems, (valueOf?_eq_some_iff h).2 hpath]
  standardReadme hnone := by
    simp [config, ofItems, valueOf?_eq_none_iff.2 hnone, Config.standard, Config.make]
  examples path hpath := by simp [config, ofItems, (valueOf?_eq_some_iff h).2 hpath]
  standardExamples hnone := by
    simp [config, ofItems, valueOf?_eq_none_iff.2 hnone, Config.standard, Config.make]
  policy p hp := by simp [config, ofItems, (valueOf?_eq_some_iff h).2 hp, Policy.ofName?_name]
  standardPolicy hnone := by
    simp [config, ofItems, valueOf?_eq_none_iff.2 hnone, Config.standard, Config.make]
  dryRun := by simp [ofItems]
  check := by simp [ofItems]
  json := by simp [ofItems]
  verbose := by simp [ofItems]

/-- Arguments that are written are accepted if their options go together. -/
theorem parse_eq_ok_iff_of_writes (h : Writes args items) :
    parse args = .ok a ↔ Permitted items ∧ a = ofItems items := by
  have hread : ∀ final, Progress.readAll ⟨[], none⟩ args = .ok final ↔
      (items.map Item.option).Nodup ∧ final = items := by
    intro final
    rw [Progress.readAll_of_writes h]
    have hnone : (([] : List Item).map Item.option).Nodup := List.nodup_nil
    exact Progress.foldlM_add_eq_ok_iff h.admitted hnone
  rw [parse]
  cases hfinal : Progress.readAll ⟨[], none⟩ args with
  | error e =>
      refine iff_of_false (by rintro ⟨⟩) fun hok => ?_
      cases hfinal.symm.trans ((hread items).2 ⟨hok.1.once, rfl⟩)
  | ok final =>
      obtain ⟨honce, rfl⟩ := (hread final).1 hfinal
      dsimp only
      split_ifs with hboth
      · exact iff_of_false (by rintro ⟨⟩) fun hok => hok.1.apart hboth
      · rw [Except.ok.injEq, eq_comm]
        exact ⟨fun ha => ⟨⟨honce, hboth⟩, ha⟩, And.right⟩

/-- **The grammar of the arguments.** Arguments are accepted if and only if they are written as options that go
together, and then they ask for what these options say. -/
theorem parse_grammar (args : List Text) :
    ((∃ a, parse args = .ok a) ↔ ∃ items, Writes args items ∧ Permitted items) ∧
      ∀ a items, parse args = .ok a → Writes args items → a.Carries items := by
  refine ⟨⟨?_, ?_⟩, ?_⟩
  · intro h
    obtain ⟨a, ha⟩ := h
    obtain ⟨final, hread, -⟩ := exists_items_of_parse ha
    obtain ⟨items, hitems⟩ := Progress.exists_writes (Progress.cameAlone_of_none []) hread
    exact ⟨items, hitems, ((parse_eq_ok_iff_of_writes hitems).1 ha).1⟩
  · intro h
    obtain ⟨items, hitems, hpermitted⟩ := h
    exact ⟨_, (parse_eq_ok_iff_of_writes hitems).2 ⟨hpermitted, rfl⟩⟩
  · intro a items ha hitems
    obtain ⟨hpermitted, rfl⟩ := (parse_eq_ok_iff_of_writes hitems).1 ha
    exact carries_ofItems hpermitted.once

/-- A value behind an equals sign may begin with a dash, and a lone dash is a value of its own. -/
theorem parse_grammar_mixed :
    let args := ["--examples=-x".toList, "-v".toList, "--readme".toList, "-".toList, "--".toList]
    let items : List Item := [.set .examples "-x".toList, .on .verbose, .set .readme "-".toList]
    Writes args items ∧ ∃ a, parse args = .ok a ∧ a.Carries items := by
  intro args items
  have hdash : "-x".toList ≠ [] ∧ "-".toList ≠ [] := by decide
  have hexamples : Spells ["--examples=-x".toList] (.set .examples "-x".toList) := .joined .examples hdash.1
  have hreadme : Spells ["--readme".toList, "-".toList] (.set .readme "-".toList) := .next .readme hdash.2 (.inl rfl)
  have hitems : Writes args items := .cons hexamples (.cons .letter (.cons hreadme .terminator))
  exact ⟨hitems, _, rfl, (parse_grammar args).2 _ items rfl hitems⟩

end Arguments
end DocSplice.CommandLine
