import DocSplice.Proofs.Agreement
import DocSplice.Proofs.Leftover

/-!
# The file that an update works on

An update works on the portable path for the octets that it is given. This is the same path exactly if the octets are
a text without backslashes (`native_ofNative_iff`). Any other octets name nothing in a tree whose names are all such
texts (`find_ne_ok_of_not_isPortable`), so that the file which is then worked on is not the one that was given. The
main statement says which file is read and overwritten, and that no other one is, for every tree and every sequence of
octets (`run_named_file`).
-/
namespace DocSplice

open FileTree NativePath

variable {t t' : FileTree} {cwd dir place x : Place} {path n : Octets} {pid : ℕ}

namespace NativePath

/-! ## Portable octets -/

/-- The octets are a text without backslashes. -/
def IsPortable (path : Octets) : Prop := ∃ text, path = Utf8.encode text ∧ '\\' ∉ text

/-- A path is taken for itself exactly if it is portable. -/
theorem native_ofNative_iff : (PortablePath.ofNative path).native = path ↔ IsPortable path := by
  constructor
  · intro h
    exact ⟨(PortablePath.ofNative path).text, h.symm, PortablePath.not_mem_ofText _⟩
  · intro h
    rcases h with ⟨text, rfl, htext⟩
    rw [PortablePath.ofNative, Utf8.decodeLossy_encode, PortablePath.ofText_of_not_mem htext, PortablePath.native]

theorem isPortable_nil : IsPortable [] := ⟨[], rfl, by simp⟩

theorem IsPortable.append {a b : Octets} (ha : IsPortable a) (hb : IsPortable b) : IsPortable (a ++ b) := by
  rcases ha with ⟨s, rfl, hs⟩
  rcases hb with ⟨u, rfl, hu⟩
  exact ⟨s ++ u, by simp, by simp [hs, hu]⟩

/-- A path with portable parts is portable. -/
theorem isPortable_of_parts (h : ∀ part ∈ parts path, IsPortable part) : IsPortable path := by
  generalize hlen : path.length = k
  induction k using Nat.strong_induction_on generalizing path with
  | _ k ih =>
    by_cases hslash : slash ∈ path
    · obtain ⟨a, b, rfl, ha⟩ := List.eq_append_cons_of_mem hslash
      rw [parts_append_cons ha, List.forall_mem_cons] at h
      have hb : IsPortable b := ih b.length (by simp at hlen; omega) h.2 rfl
      have hseparator : IsPortable [slash] := ⟨['/'], by decide, by decide⟩
      exact h.1.append (hseparator.append hb)
    · rw [parts_of_not_mem hslash] at h
      exact h path List.mem_cons_self

/-- A path with portable names is portable. -/
theorem isPortable_of_steps (h : ∀ n, .name n ∈ steps path → IsPortable n) : IsPortable path := by
  apply isPortable_of_parts
  intro part hpart
  by_cases hnil : part = []
  · exact hnil ▸ isPortable_nil
  · have hstep : Step.ofPart part ∈ steps path := List.mem_map_of_mem (List.mem_filter.2 ⟨hpart, by simpa using hnil⟩)
    rw [Step.ofPart] at hstep
    split_ifs at hstep with hhere hparent
    · exact hhere ▸ ⟨['.'], by decide, by decide⟩
    · exact hparent ▸ ⟨['.', '.'], by decide, by decide⟩
    · exact h part hstep

end NativePath

namespace FileTree

/-! ## Names on the way -/

/-- A walk that finds something has found every name that it was asked for. -/
theorem Walks.exists_of_name_mem {rule : StepRule} {follow : Bool} {links : ℕ} {steps : List Step} {d : Destination}
    (w : Walks t rule follow links dir steps d) (hfound : ∃ p e, d = .found p e) (hn : .name n ∈ steps) :
    ∃ parent e, t.lookup (parent ++ [n]) = some e := by
  induction w with
  | arrive _ => cases hn
  | here _ _ ih => exact ih hfound (by simpa using hn)
  | parent _ _ ih => exact ih hfound (by simpa using hn)
  | vacant _ _ => simp at hfound
  | enter _ h _ ih =>
      rcases List.mem_cons.1 hn with hn | hn
      · cases hn
        exact ⟨_, _, h⟩
      · exact ih hfound hn
  | file _ h =>
      cases List.mem_singleton.1 hn
      exact ⟨_, _, h⟩
  | link _ h _ =>
      cases List.mem_singleton.1 hn
      exact ⟨_, _, h⟩
  | jump _ h _ _ ih =>
      rcases List.mem_cons.1 hn with hn | hn
      · cases hn
        exact ⟨_, _, h⟩
      · exact ih hfound (List.mem_append_right _ hn)

/-- Every name in the tree is portable. -/
def HasPortableNames (t : FileTree) : Prop := ∀ dir n e, t.lookup (dir ++ [n]) = some e → IsPortable n

/-- Where every name is portable, a path that is not leads to nothing. -/
theorem find_ne_ok_of_not_isPortable (ht : t.HasPortableNames) (hpath : ¬ IsPortable path) (place : Place) (e : Entry) :
    t.find cwd path ≠ .ok (place, e) := by
  intro hfind
  obtain ⟨-, -, w, -⟩ := destination_eq_ok_iff.1 (find_eq_ok_iff.1 hfind)
  refine hpath (isPortable_of_steps fun n hn => ?_)
  obtain ⟨parent, e', he'⟩ := w.exists_of_name_mem ⟨place, e, rfl⟩ hn
  exact ht parent n e' he'

end FileTree

namespace Storage

/-! ## Replacing one file -/

/-- Where nothing stands under the temporary name, no link has been left there. -/
theorem noLinkLeft_of_find {path : PortablePath} {e : Entry} (hfind : t.find cwd path.native = .ok (place, e))
    (hvacant : t.lookup (temporaryPlace pid place) = none) : NoLinkLeft t cwd pid path := by
  intro place' e' target hfind'
  cases hfind.symm.trans hfind'
  simp [hvacant]

/-- Unless a link has been left under the temporary name, a replacement that fails has changed at most what stands
there. -/
theorem lookup_of_replace_error {path : PortablePath} {m : Mode} {c content : Octets} {e : StorageError}
    (ht : t.WellFormed) (hcwd : t.IsDir cwd) (hfind : t.find cwd path.native = .ok (place, .file m c))
    (hleft : NoLinkLeft t cwd pid path) (h : (replace pid path content).run cwd t = (.error e, t'))
    (hx : x ≠ temporaryPlace pid place) : t'.lookup x = t.lookup x := by
  obtain ⟨dir, n, k, rfl, htemp, hpath, -, hdir, -, htempNames⟩ := exists_names_of_file ht pid (lookup_of_find hfind)
  have hplain : ∀ target, t.lookup (dir ++ [k]) ≠ some (.link target) := fun target => htemp ▸ hleft _ _ target hfind
  rw [htemp] at hx
  rcases run_landing_of_find hfind with ⟨hlanding, -⟩ | ⟨f, hlanding⟩
  · rcases run_replace_cases ht hcwd content (congrArg Prod.fst hlanding) with
      ⟨f, u, hrun, hkept⟩ | ⟨v, source, y, mode, hopened, ⟨f, u, hrun, hkept⟩ | ⟨u, dest, hrun, -⟩⟩
    · obtain rfl := congrArg Prod.snd (hrun.symm.trans h)
      refine (hkept x).resolve_right ?_
      rw [hpath]
      rintro ⟨d, hdest, rfl⟩
      rw [destination_pathTo ht.rooted hdir htempNames (fun _ _ => rfl) hdest, place_standing] at hx
      exact hx rfl
    · obtain rfl := congrArg Prod.snd (hrun.symm.trans h)
      have hown := destination_pathTo ht.rooted hdir htempNames (fun _ _ => rfl) (hpath ▸ hopened.own)
      have hsource : source = dir ++ [k] := by simpa using congrArg Destination.place hown
      subst hsource
      obtain rfl := hopened.x_eq_source hplain
      rw [(hkept x).resolve_right hx, hopened.filled.lookup_of_ne hx]
    · cases congrArg Prod.fst (hrun.symm.trans h)
  · rw [run_replace_of_error hlanding] at h
    obtain rfl := congrArg Prod.snd h
    rfl

/-- Unless a link has been left under the temporary name, a replacement that succeeds has put a file with the content
in the place of the old one, and has changed at most what stands under the temporary name besides. -/
theorem lookup_of_replace_ok {path : PortablePath} {m : Mode} {c content : Octets} (ht : t.WellFormed)
    (hcwd : t.IsDir cwd) (hfind : t.find cwd path.native = .ok (place, .file m c)) (hleft : NoLinkLeft t cwd pid path)
    (h : (replace pid path content).run cwd t = (.ok (), t')) :
    (∃ m', t'.lookup place = some (.file m' content)) ∧
      ∀ x, x ≠ place → x ≠ temporaryPlace pid place → t'.lookup x = t.lookup x := by
  obtain ⟨u, y, mode, hreplaced⟩ := exists_replaced ht hcwd hfind h
  obtain rfl := hreplaced.plain fun target => hleft _ _ target hfind
  refine ⟨⟨mode, hreplaced.lookup_dest.trans hreplaced.filled.lookup_self⟩, ?_⟩
  intro x hplace htemp
  rw [hreplaced.lookup_of_ne hplace htemp, if_neg htemp]

end Storage

namespace Update

open Storage

variable {c : Config} {result : Except UpdateError Report}

/-! ## The file of an update -/

/-- An update with the given result has worked on the file that the path leads to. If it has succeeded, this file was
the document and holds the updated document. No other file is changed, and none if it has failed, but for what stands
under the temporary name for this file. -/
structure WorksOn (t : FileTree) (cwd : Place) (pid : ℕ) (path : NativePath) (c : Config)
    (result : Except UpdateError Report) (t' : FileTree) : Prop where
  rewritten : ∀ r, result = .ok r → ∃ place m m' document examples,
    t.find cwd path = .ok (place, .file m (Utf8.encode document)) ∧ textAt? t cwd c.examples = some examples ∧
      t'.lookup place = some (.file m' (Utf8.encode (Plan.make c.policy document examples).updated))
  others : ∀ x, t'.lookup x ≠ t.lookup x → ∃ place m old, t.find cwd path = .ok (place, .file m old) ∧
    (x = place ∧ (∃ r, result = .ok r) ∨ x = temporaryPlace pid place)

/-- An update that fails before it writes has changed nothing. -/
theorem worksOn_of_unwritten (t : FileTree) (cwd : Place) (pid : ℕ) (path : NativePath) (c : Config) (e : UpdateError) :
    WorksOn t cwd pid path c (.error e) t :=
  ⟨by simp, fun _ hx => absurd rfl hx⟩

/-- An update works on the file that its own path leads to. -/
theorem worksOn_run (ht : t.WellFormed) (hcwd : t.IsDir cwd) (c : Config) (hleft : NoLinkLeft t cwd pid c.readme) :
    WorksOn t cwd pid c.readme.native c ((run pid c).run cwd t).1 ((run pid c).run cwd t).2 := by
  rw [run_eq]
  cases hplan : ((plan c).run cwd t).1 with
  | error e => exact worksOn_of_unwritten t cwd pid _ c e
  | ok plan =>
      obtain ⟨document, examples, hreads, rfl⟩ := run_plan_eq_ok_iff.1 hplan
      obtain ⟨place, m, hfind, -⟩ := read_eq_ok_iff.1 (textAt?_eq_some_iff_read.1 hreads.readme)
      dsimp only
      rcases hrun : (replace pid c.readme _).run cwd t with ⟨e | u, t'⟩
      · refine ⟨by simp, ?_⟩
        intro x hx
        refine ⟨place, m, _, hfind, .inr ?_⟩
        by_contra htemp
        exact hx (lookup_of_replace_error ht hcwd hfind hleft hrun htemp)
      · obtain ⟨⟨m', hnew⟩, hkept⟩ := lookup_of_replace_ok ht hcwd hfind hleft hrun
        refine ⟨fun _ _ => ⟨place, m, m', document, examples, hfind, hreads.examples, hnew⟩, ?_⟩
        intro x hx
        refine ⟨place, m, _, hfind, ?_⟩
        by_cases hplace : x = place
        · exact .inl ⟨hplace, _, rfl⟩
        · refine .inr ?_
          by_contra htemp
          exact hx (hkept x hplace htemp)

/-- **Which file an update works on.** It works on the file that the portable path for the given octets leads to. If
the octets are portable, this is the file that they lead to themselves. Otherwise it is another path, and in a tree of
portable names the octets lead to nothing. -/
theorem run_named_file (ht : t.WellFormed) (hcwd : t.IsDir cwd) (path : NativePath) (examples : PortablePath)
    (policy : Policy) (hleft : NoLinkLeft t cwd pid (.ofNative path)) :
    let c : Config := ⟨.ofNative path, examples, policy⟩
    let answer := (run pid c).run cwd t
    WorksOn t cwd pid c.readme.native c answer.1 answer.2 ∧
      (IsPortable path → WorksOn t cwd pid path c answer.1 answer.2) ∧
      (¬IsPortable path →
        c.readme.native ≠ path ∧ (t.HasPortableNames → ∀ place e, t.find cwd path ≠ .ok (place, e))) := by
  intro c answer
  have hworks : WorksOn t cwd pid c.readme.native c answer.1 answer.2 := worksOn_run ht hcwd c hleft
  refine ⟨hworks, ?_, ?_⟩
  · intro hpath
    have hsame : c.readme.native = path := native_ofNative_iff.2 hpath
    rwa [hsame] at hworks
  · intro hpath
    exact ⟨fun hsame => hpath (native_ofNative_iff.1 hsame), fun hnames => find_ne_ok_of_not_isPortable hnames hpath⟩

/-! ## A name with a backslash -/

/-- The octets of `a\b`, which are a name. -/
def backslashName : Octets := [0x61, 0x5C, 0x62]

/-- A sample with two more copies of its document, at `a\b` and at `a/b`. -/
def backslashTree : FileTree :=
  (((CommandLine.sampleTree CommandLine.sampleDocument "new\n".toList).insert [backslashName]
      (.file 0o644 (Utf8.encode CommandLine.sampleDocument))).insert [[0x61]] (.directory 0o755)).insert
    ([[0x61]] ++ [[0x62]]) (.file 0o644 (Utf8.encode CommandLine.sampleDocument))

/-- The configuration for a document that is given by its octets. -/
def configFor (path : NativePath) : Config := { Config.standard with readme := .ofNative path }

theorem wellFormed_backslashTree : backslashTree.WellFormed := by
  have hbackslash : IsName backslashName := ⟨by decide, by decide, by decide, by decide, by decide⟩
  have ha : IsName [0x61] := ⟨by decide, by decide, by decide, by decide, by decide⟩
  have hb : IsName [0x62] := ⟨by decide, by decide, by decide, by decide, by decide⟩
  have hroot := (CommandLine.wellFormed_sampleTree CommandLine.sampleDocument "new\n".toList).insert_root hbackslash
    (by decide +kernel) (.file 0o644 (Utf8.encode CommandLine.sampleDocument))
  exact (hroot.insert_root ha (by decide +kernel) (.directory 0o755)).insert_vacant ⟨0o755, by decide +kernel⟩ hb
    (by decide +kernel) _

/-- An update of `README.md` works on this file, and one of `a\b` works on `a/b`. -/
theorem run_named_file_backslash :
    let readme := Utf8.encode Config.standardReadme
    let ofReadme := (run 1 (configFor readme)).run [] backslashTree
    let ofBackslash := (run 1 (configFor backslashName)).run [] backslashTree
    IsPortable readme ∧ WorksOn backslashTree [] 1 readme (configFor readme) ofReadme.1 ofReadme.2 ∧
      ¬IsPortable backslashName ∧ (configFor backslashName).readme.native = Utf8.encode "a/b".toList ∧
      (configFor backslashName).readme.native ≠ backslashName ∧
      WorksOn backslashTree [] 1 (configFor backslashName).readme.native (configFor backslashName) ofBackslash.1
        ofBackslash.2 := by
  intro readme ofReadme ofBackslash
  have hdir : backslashTree.IsDir [] := ⟨0o755, by decide +kernel⟩
  have hportable : IsPortable readme := ⟨Config.standardReadme, rfl, by decide⟩
  have hname : ¬IsPortable backslashName := by
    rw [← native_ofNative_iff]
    decide
  have hreadme : backslashTree.find [] (PortablePath.ofNative readme).native =
      .ok ([readme], .file 0o644 (Utf8.encode CommandLine.sampleDocument)) := by decide +kernel
  have hbackslash : backslashTree.find [] (PortablePath.ofNative backslashName).native =
      .ok ([[0x61], [0x62]], .file 0o644 (Utf8.encode CommandLine.sampleDocument)) := by decide +kernel
  have hvacant : backslashTree.lookup (temporaryPlace 1 [readme]) = none ∧
      backslashTree.lookup (temporaryPlace 1 [[0x61], [0x62]]) = none := by decide +kernel
  obtain ⟨-, hworks, -⟩ := run_named_file wellFormed_backslashTree hdir readme (.ofText Config.standardExamples)
    Policy.standard (noLinkLeft_of_find hreadme hvacant.1)
  obtain ⟨hother, -, hdiffers⟩ := run_named_file wellFormed_backslashTree hdir backslashName
    (.ofText Config.standardExamples) Policy.standard (noLinkLeft_of_find hbackslash hvacant.2)
  exact ⟨hportable, hworks hportable, hname, by decide +kernel, (hdiffers hname).1, hother⟩

/-- With a file at `a\b`, an update of `a\b` succeeds, leaves that file alone and overwrites `a/b`. -/
theorem run_overwrites_other_file :
    let answer := (run 1 (configFor backslashName)).run [] backslashTree
    (∃ r, answer.1 = .ok r) ∧
      backslashTree.find [] backslashName =
        .ok ([backslashName], .file 0o644 (Utf8.encode CommandLine.sampleDocument)) ∧
      answer.2.lookup [backslashName] = backslashTree.lookup [backslashName] ∧
      answer.2.lookup [[0x61], [0x62]] ≠ backslashTree.lookup [[0x61], [0x62]] ∧
      ¬WorksOn backslashTree [] 1 backslashName (configFor backslashName) answer.1 answer.2 := by
  intro answer
  have hok : answer.1.isOk = true := by decide +kernel
  have hfind : backslashTree.find [] backslashName =
      .ok ([backslashName], .file 0o644 (Utf8.encode CommandLine.sampleDocument)) := by decide +kernel
  have hchanged : answer.2.lookup [[0x61], [0x62]] ≠ backslashTree.lookup [[0x61], [0x62]] := by decide +kernel
  refine ⟨?_, hfind, by decide +kernel, hchanged, ?_⟩
  · cases h : answer.1 with
    | error e => simp [h, Except.isOk, Except.toBool] at hok
    | ok r => exact ⟨r, rfl⟩
  · intro hworks
    obtain ⟨place, m, old, hplace, hx⟩ := hworks.others _ hchanged
    cases hfind.symm.trans hplace
    rcases hx with ⟨hx, -⟩ | hx
    · revert hx
      decide
    · revert hx
      decide +kernel

end Update
end DocSplice
