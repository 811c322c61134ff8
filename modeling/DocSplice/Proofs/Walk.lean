import Mathlib.Data.List.Induction
import DocSplice.FileTree.Access
import DocSplice.Proofs.Name

/-!
# Walks through a tree

`Walks` is the walk of a path as a derivation, with one rule for each kind of step; `walk_eq_ok_iff` says that
the walk ends exactly where a derivation leads. What holds of walks is proved by induction on derivations.

The path from the root to a place leads there, by way of its directories (`Walks.pathTo`). A walk whose names are
asked for one by one differs only in what it refuses (`Walks.single`).
-/
namespace DocSplice

/-- The place at which a walk ends. -/
def Destination.place : Destination → Place
  | found p _ => p
  | vacant p => p

namespace FileTree

open NativePath

variable {t t' : FileTree} {rule : StepRule} {follow : Bool} {links : ℕ} {dir p q : Place}
  {steps rest : List Step} {n : Octets} {d : Destination}

/-- What a walk that ends at the place finds there. -/
def standing (t : FileTree) (p : Place) : Destination :=
  match t.lookup p with
  | some e => .found p e
  | none => .vacant p

theorem standing_of_some {e : Entry} (h : t.lookup p = some e) : t.standing p = .found p e := by
  simp [standing, h]

theorem standing_of_none (h : t.lookup p = none) : t.standing p = .vacant p := by
  simp [standing, h]

@[simp] theorem place_standing (t : FileTree) (p : Place) : (t.standing p).place = p := by
  rw [standing]
  split <;> rfl

/-- A directory stands at the place. -/
def IsDir (t : FileTree) (p : Place) : Prop := ∃ mode, t.lookup p = some (.directory mode)

/-- A tree as a disk holds it: under its root, every entry has a name in a directory. -/
structure WellFormed (t : FileTree) : Prop where
  root : t.IsDir []
  above : ∀ dir n e, t.lookup (dir ++ [n]) = some e → t.IsDir dir
  isName : ∀ dir n e, t.lookup (dir ++ [n]) = some e → IsName n

/-- The directories of a tree: the root is one, and what a directory stands in is one. -/
structure Rooted (t : FileTree) : Prop where
  root : t.IsDir []
  dropLast : ∀ p, t.IsDir p → t.IsDir p.dropLast

theorem Rooted.isDir_of_concat (h : t.Rooted) (hdir : t.IsDir (p ++ (dir ++ [n]))) : t.IsDir (p ++ dir) := by
  have := h.dropLast _ hdir
  rwa [← List.append_assoc, List.dropLast_concat] at this

theorem WellFormed.rooted (h : t.WellFormed) : t.Rooted := by
  refine ⟨h.root, ?_⟩
  intro p hp
  rcases List.eq_nil_or_concat' p with rfl | ⟨dir, n, rfl⟩
  · exact hp
  · obtain ⟨mode, hmode⟩ := hp
    rw [List.dropLast_concat]
    exact h.above dir n _ hmode

/-- A file does not stand at the root. -/
theorem Rooted.exists_concat (h : t.Rooted) {m : Mode} {c : Octets} (hfile : t.lookup p = some (.file m c)) :
    ∃ dir n, p = dir ++ [n] := by
  refine (List.eq_nil_or_concat' p).resolve_left ?_
  rintro rfl
  obtain ⟨mode, hroot⟩ := h.root
  cases hfile.symm.trans hroot

/-- Every name on the way to an entry is a name. -/
theorem WellFormed.isName_of_mem (h : t.WellFormed) {e : Entry} (he : t.lookup p = some e) :
    ∀ n ∈ p, IsName n := by
  induction p using List.reverseRecOn generalizing e with
  | nil => simp
  | append_singleton dir m ih =>
      intro n hn
      obtain ⟨mode, hmode⟩ := h.above dir m e he
      rcases List.mem_append.1 hn with hn | hn
      · exact ih hmode n hn
      · rw [List.mem_singleton.1 hn]
        exact h.isName dir m e he

theorem wellFormed_empty : empty.WellFormed := by
  have hlookup : ∀ dir n, empty.lookup (dir ++ [n]) = none := by
    intro dir n
    cases dir <;> rfl
  refine ⟨⟨0o755, rfl⟩, ?_, ?_⟩
  · intro dir n e he
    cases (hlookup dir n).symm.trans he
  · intro dir n e he
    cases (hlookup dir n).symm.trans he

/-- A new entry under a name in a directory, in place of no directory, keeps the shape of the tree. -/
theorem WellFormed.insert (h : t.WellFormed) (hdir : t.IsDir dir) (hn : IsName n)
    (hfree : ¬ t.IsDir (dir ++ [n])) (e : Entry) : (t.insert (dir ++ [n]) e).WellFormed := by
  have hkeep : ∀ p, t.IsDir p → (t.insert (dir ++ [n]) e).IsDir p := by
    intro p h
    rcases h with ⟨mode, hmode⟩
    have hne : p ≠ dir ++ [n] := by
      intro heq
      subst heq
      exact hfree ⟨mode, hmode⟩
    exact ⟨mode, by rw [lookup_insert, if_neg hne, hmode]⟩
  have hcases : ∀ p m e', (t.insert (dir ++ [n]) e).lookup (p ++ [m]) = some e' →
      (p = dir ∧ m = n) ∨ t.lookup (p ++ [m]) = some e' := by
    intro p m e' he'
    rw [lookup_insert] at he'
    split_ifs at he' with heq
    · exact .inl (by simpa using List.append_inj' heq rfl)
    · exact .inr he'
  refine ⟨hkeep _ h.root, ?_, ?_⟩
  · intro p m e' he'
    rcases hcases p m e' he' with ⟨rfl, rfl⟩ | hold
    · exact hkeep _ hdir
    · exact hkeep _ (h.above p m e' hold)
  · intro p m e' he'
    rcases hcases p m e' he' with ⟨rfl, rfl⟩ | hold
    · exact hn
    · exact h.isName p m e' hold

/-- Where a walk begins that follows a link from a directory. -/
def linkStart (dir : Place) (target : NativePath) : Place := if target.isAbsolute then [] else dir

theorem Rooted.isDir_linkStart (h : t.Rooted) (hdir : t.IsDir dir) (target : NativePath) :
    t.IsDir (linkStart dir target) := by
  rw [linkStart]
  split
  · exact h.root
  · exact hdir

/-! ## One step of the walk -/

section Step

variable (t rule follow links dir rest n)

theorem walk_nil : t.walk rule follow links dir [] =
    match t.lookup dir with
    | some e => .ok (.found dir e)
    | none => .error .notFound := by
  cases links <;> rfl

variable {dir} {step : Step} {n}

theorem walk_refused {r : Refusal} (h : rule dir step = some r) :
    t.walk rule follow links dir (step :: rest) = .error r := by
  cases links <;> simp [walk, walkTo, h]

theorem walk_here (h : rule dir .here = none) :
    t.walk rule follow links dir (.here :: rest) = t.walk rule follow links dir rest := by
  cases links <;> simp [walk, walkTo, h]

theorem walk_parent (h : rule dir .parent = none) :
    t.walk rule follow links dir (.parent :: rest) = t.walk rule follow links dir.dropLast rest := by
  cases links <;> simp [walk, walkTo, h]

theorem walk_name_none (h : rule dir (.name n) = none) (hn : t.lookup (dir ++ [n]) = none) :
    t.walk rule follow links dir (.name n :: rest) =
      if rest = [] then .ok (.vacant (dir ++ [n])) else .error .notFound := by
  cases links <;> simp [walk, walkTo, h, hn]

theorem walk_name_directory (h : rule dir (.name n) = none) {mode : Mode}
    (hn : t.lookup (dir ++ [n]) = some (.directory mode)) :
    t.walk rule follow links dir (.name n :: rest) = t.walk rule follow links (dir ++ [n]) rest := by
  cases links <;> simp [walk, walkTo, h, hn]

theorem walk_name_file (h : rule dir (.name n) = none) {mode : Mode} {content : Octets}
    (hn : t.lookup (dir ++ [n]) = some (.file mode content)) :
    t.walk rule follow links dir (.name n :: rest) =
      if rest = [] then .ok (.found (dir ++ [n]) (.file mode content)) else .error .notDirectory := by
  cases links <;> simp [walk, walkTo, h, hn]

theorem walk_name_link (h : rule dir (.name n) = none) {target : NativePath}
    (hn : t.lookup (dir ++ [n]) = some (.link target)) :
    t.walk rule follow links dir (.name n :: rest) =
      if rest = [] ∧ follow = false then .ok (.found (dir ++ [n]) (.link target))
      else match links with
        | 0 => .error .tooManyLinks
        | links + 1 => t.walk rule follow links (linkStart dir target) (linkSteps target ++ rest) := by
  cases links <;> simp [walk, walkTo, h, hn, linkStart]

end Step

/-! ## Derivations -/

/-- A walk as a derivation: from a directory, the steps lead to a destination with at most the given number of
links followed on the way. -/
inductive Walks (t : FileTree) (rule : StepRule) (follow : Bool) :
    ℕ → Place → List Step → Destination → Prop where
  | arrive {links : ℕ} {dir : Place} {e : Entry} (h : t.lookup dir = some e) :
      Walks t rule follow links dir [] (.found dir e)
  | here {links : ℕ} {dir : Place} {rest : List Step} {d : Destination} (free : rule dir .here = none)
      (w : Walks t rule follow links dir rest d) : Walks t rule follow links dir (.here :: rest) d
  | parent {links : ℕ} {dir : Place} {rest : List Step} {d : Destination} (free : rule dir .parent = none)
      (w : Walks t rule follow links dir.dropLast rest d) :
      Walks t rule follow links dir (.parent :: rest) d
  | vacant {links : ℕ} {dir : Place} {n : Octets} (free : rule dir (.name n) = none)
      (h : t.lookup (dir ++ [n]) = none) :
      Walks t rule follow links dir [.name n] (.vacant (dir ++ [n]))
  | enter {links : ℕ} {dir : Place} {n : Octets} {rest : List Step} {d : Destination} {mode : Mode}
      (free : rule dir (.name n) = none) (h : t.lookup (dir ++ [n]) = some (.directory mode))
      (w : Walks t rule follow links (dir ++ [n]) rest d) :
      Walks t rule follow links dir (.name n :: rest) d
  | file {links : ℕ} {dir : Place} {n : Octets} {mode : Mode} {content : Octets}
      (free : rule dir (.name n) = none) (h : t.lookup (dir ++ [n]) = some (.file mode content)) :
      Walks t rule follow links dir [.name n] (.found (dir ++ [n]) (.file mode content))
  | link {links : ℕ} {dir : Place} {n : Octets} {target : NativePath} (free : rule dir (.name n) = none)
      (h : t.lookup (dir ++ [n]) = some (.link target)) (keep : follow = false) :
      Walks t rule follow links dir [.name n] (.found (dir ++ [n]) (.link target))
  | jump {links : ℕ} {dir : Place} {n : Octets} {rest : List Step} {d : Destination}
      {target : NativePath} (free : rule dir (.name n) = none)
      (h : t.lookup (dir ++ [n]) = some (.link target)) (go : ¬ (rest = [] ∧ follow = false))
      (w : Walks t rule follow links (linkStart dir target) (linkSteps target ++ rest) d) :
      Walks t rule follow (links + 1) dir (.name n :: rest) d

/-- A walk that ends is a derivation, if this holds of the walks behind each link. -/
theorem walks_of_walk_of_jumps (hjump : ∀ fewer, links = fewer + 1 → ∀ dir steps,
      t.walk rule follow fewer dir steps = .ok d → Walks t rule follow fewer dir steps d)
    (h : t.walk rule follow links dir steps = .ok d) : Walks t rule follow links dir steps d := by
  induction steps generalizing dir with
  | nil =>
      rw [walk_nil] at h
      cases hdir : t.lookup dir with
      | none => simp [hdir] at h
      | some e =>
          simp only [hdir, Except.ok.injEq] at h
          exact h ▸ .arrive hdir
  | cons step rest ih =>
      cases hrule : rule dir step with
      | some r => simp [walk_refused _ _ _ _ _ hrule] at h
      | none =>
          cases step with
          | here =>
              rw [walk_here _ _ _ _ _ hrule] at h
              exact .here hrule (ih h)
          | parent =>
              rw [walk_parent _ _ _ _ _ hrule] at h
              exact .parent hrule (ih h)
          | name n =>
              cases hn : t.lookup (dir ++ [n]) with
              | none =>
                  rw [walk_name_none _ _ _ _ _ hrule hn] at h
                  split at h
                  · next hrest =>
                    cases h
                    exact hrest ▸ .vacant hrule hn
                  · cases h
              | some e =>
                  cases e with
                  | directory mode =>
                      rw [walk_name_directory _ _ _ _ _ hrule hn] at h
                      exact .enter hrule hn (ih h)
                  | file mode content =>
                      rw [walk_name_file _ _ _ _ _ hrule hn] at h
                      split at h
                      · next hrest =>
                        cases h
                        exact hrest ▸ .file hrule hn
                      · cases h
                  | link target =>
                      rw [walk_name_link _ _ _ _ _ hrule hn] at h
                      split at h
                      · next hlast =>
                        cases h
                        exact hlast.1 ▸ .link hrule hn hlast.2
                      · next hgo =>
                        cases links with
                        | zero => cases h
                        | succ fewer => exact .jump hrule hn hgo (hjump fewer rfl _ _ h)

/-- A walk ends where a derivation leads. -/
theorem walk_eq_ok_iff :
    t.walk rule follow links dir steps = .ok d ↔ Walks t rule follow links dir steps d := by
  constructor
  · intro h
    induction links generalizing dir steps with
    | zero => exact walks_of_walk_of_jumps (by simp) h
    | succ links ih =>
        refine walks_of_walk_of_jumps ?_ h
        intro fewer hfewer dir steps hwalk
        obtain rfl : links = fewer := by omega
        exact ih hwalk
  · intro w
    induction w with
    | arrive h => simp [walk_nil, h]
    | here free w ih => rw [walk_here _ _ _ _ _ free, ih]
    | parent free w ih => rw [walk_parent _ _ _ _ _ free, ih]
    | vacant free h => rw [walk_name_none _ _ _ _ _ free h, if_pos rfl]
    | enter free h w ih => rw [walk_name_directory _ _ _ _ _ free h, ih]
    | file free h => rw [walk_name_file _ _ _ _ _ free h, if_pos rfl]
    | link free h keep => rw [walk_name_link _ _ _ _ _ free h, if_pos ⟨rfl, keep⟩]
    | jump free h go w ih => rw [walk_name_link _ _ _ _ _ free h, if_neg go]; exact ih

/-- A walk finds what stands where it ends. -/
theorem Walks.eq_standing (w : Walks t rule follow links dir steps d) : d = t.standing d.place := by
  induction w with
  | arrive h => exact (standing_of_some h).symm
  | here free w ih => exact ih
  | parent free w ih => exact ih
  | vacant free h => exact (standing_of_none h).symm
  | enter free h w ih => exact ih
  | file free h => exact (standing_of_some h).symm
  | link free h keep => exact (standing_of_some h).symm
  | jump free h go w ih => exact ih

theorem Walks.lookup_of_found {e : Entry} (w : Walks t rule follow links dir steps (.found p e)) :
    t.lookup p = some e := by
  have hstanding := w.eq_standing
  cases hp : t.lookup p with
  | none =>
      rw [Destination.place, standing_of_none hp] at hstanding
      cases hstanding
  | some e' =>
      rw [Destination.place, standing_of_some hp] at hstanding
      cases hstanding
      rfl

/-- A name that leads to no link that is followed leads to its place. -/
theorem walks_name (free : rule dir (.name n) = none)
    (keep : ∀ target, t.lookup (dir ++ [n]) = some (.link target) → follow = false) :
    Walks t rule follow links dir [.name n] (t.standing (dir ++ [n])) := by
  cases h : t.lookup (dir ++ [n]) with
  | none => exact standing_of_none h ▸ .vacant free h
  | some e =>
      rw [standing_of_some h]
      cases e with
      | directory mode => exact .enter free h (.arrive h)
      | file mode content => exact .file free h
      | link target => exact .link free h (keep target h)

theorem Walks.eq_of_name (keep : ∀ target, t.lookup (dir ++ [n]) = some (.link target) → follow = false)
    (w : Walks t rule follow links dir [.name n] d) : d = t.standing (dir ++ [n]) := by
  cases w with
  | vacant _ h => exact (standing_of_none h).symm
  | file _ h => exact (standing_of_some h).symm
  | link _ h _ => exact (standing_of_some h).symm
  | jump _ h go _ => exact absurd ⟨rfl, keep _ h⟩ go
  | enter _ _ w =>
      cases w with
      | arrive h => exact (standing_of_some h).symm

/-! ## Walks along a place -/

/-- The names of a directory lead to this directory. -/
theorem Walks.behind (ht : t.Rooted) (hdir : t.IsDir (p ++ dir))
    (w : Walks t rule follow links p (dir.map Step.name ++ rest) d) :
    Walks t rule follow links (p ++ dir) rest d := by
  induction dir using List.reverseRecOn generalizing rest with
  | nil => simpa using w
  | append_singleton dir n ih =>
      have habove : t.IsDir (p ++ dir) := ht.isDir_of_concat hdir
      have w : Walks t rule follow links (p ++ dir) (.name n :: rest) d := ih habove (by simpa using w)
      obtain ⟨mode, hmode⟩ := hdir
      rw [← List.append_assoc] at hmode ⊢
      cases w with
      | enter _ _ w => exact w
      | vacant _ h => cases h.symm.trans hmode
      | file _ h => cases h.symm.trans hmode
      | link _ h => cases h.symm.trans hmode
      | jump _ h => cases h.symm.trans hmode

/-- Where the path from the root to a place leads, if it is walked at all. -/
theorem Walks.pathTo (ht : t.Rooted) (hdir : t.IsDir dir) (hnames : ∀ m ∈ dir ++ [n], IsName m)
    (w : Walks t rule follow links [] (pathTo (dir ++ [n])).steps d) :
    Walks t rule follow links dir [.name n] d := by
  rw [steps_pathTo hnames, List.map_append] at w
  exact Walks.behind (p := []) ht hdir w

/-! ## Names asked for one by one -/

theorem singleRule_name (free : t.wholeRule dir (.name n) = none) :
    t.singleRule dir (.name n) = none ∨ t.singleRule dir (.name n) = some .nameTooLong := by
  by_cases hlong : pathLimit ≤ (FileTree.pathTo (dir ++ [n])).length
  · exact .inr (by simp [singleRule, hlong])
  · exact .inl (by simp [singleRule, hlong, free])

/-- A walk whose names are asked for one by one ends where the whole walk does, unless the path to one of
them is too long. -/
theorem Walks.single (w : Walks t t.wholeRule follow links dir steps d) :
    t.walk t.singleRule follow links dir steps = .ok d ∨
      t.walk t.singleRule follow links dir steps = .error .nameTooLong := by
  induction w with
  | arrive h => exact .inl (walk_eq_ok_iff.2 (.arrive h))
  | here free w ih => rwa [walk_here _ _ _ _ _ rfl]
  | parent free w ih => rwa [walk_parent _ _ _ _ _ rfl]
  | vacant free h =>
      rcases singleRule_name free with hfree | hlong
      · exact .inl (walk_eq_ok_iff.2 (.vacant hfree h))
      · exact .inr (walk_refused _ _ _ _ _ hlong)
  | enter free h w ih =>
      rcases singleRule_name free with hfree | hlong
      · rwa [walk_name_directory _ _ _ _ _ hfree h]
      · exact .inr (walk_refused _ _ _ _ _ hlong)
  | file free h =>
      rcases singleRule_name free with hfree | hlong
      · exact .inl (walk_eq_ok_iff.2 (.file hfree h))
      · exact .inr (walk_refused _ _ _ _ _ hlong)
  | link free h keep =>
      rcases singleRule_name free with hfree | hlong
      · exact .inl (walk_eq_ok_iff.2 (.link hfree h keep))
      · exact .inr (walk_refused _ _ _ _ _ hlong)
  | jump free h go w ih =>
      rcases singleRule_name free with hfree | hlong
      · rw [walk_name_link _ _ _ _ _ hfree h, if_neg go]
        exact ih
      · exact .inr (walk_refused _ _ _ _ _ hlong)

end FileTree
end DocSplice
