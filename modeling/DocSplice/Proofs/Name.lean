import Mathlib.Data.List.TakeDrop
import DocSplice.FileTree.Resolve
import DocSplice.Storage.Replace
import DocSplice.Proofs.Utf8

/-!
# Names and paths from the root

`IsName` says which octets a directory can hold as a name. The path from the root to a place of such names is
read back as these names (`steps_pathTo`), its file name is the last of them (`fileName?_pathTo`), and another
file name leads to another entry of the same directory (`withFileName_pathTo`). Lossy decoding brings in no
character below 128 that was not there, so that the name of a temporary file is a name (`isName_temporaryText`).
-/
namespace DocSplice

namespace NativePath

/-- What a directory can hold as a name. -/
structure IsName (n : Octets) : Prop where
  ne_nil : n ≠ []
  slash_not_mem : slash ∉ n
  nul_not_mem : 0 ∉ n
  ne_here : n ≠ [dot]
  ne_parent : n ≠ [dot, dot]

/-! ## Steps -/

theorem parts.go_eq_append (done : List Octets) (part path : Octets) :
    go done part path = done.reverse ++ go [] part path := by
  induction path generalizing done part with
  | nil => simp [go]
  | cons b r ih =>
      by_cases h : b = slash
      · rw [go, if_pos h, go, if_pos h, ih, ih [_]]
        simp
      · rw [go, if_neg h, go, if_neg h, ih]

theorem parts.go_append {n : Octets} (h : slash ∉ n) (done : List Octets) (part path : Octets) :
    go done part (n ++ path) = go done (n.reverse ++ part) path := by
  induction n generalizing part with
  | nil => rfl
  | cons b n ih =>
      obtain ⟨hb, hn⟩ := not_or.1 (List.mem_cons.not.1 h)
      simp [go, Ne.symm hb, ih hn]

/-- The part before the first slash. -/
theorem parts_append_cons {n : Octets} (h : slash ∉ n) (path : NativePath) :
    parts (n ++ slash :: path) = n :: parts path := by
  rw [parts, parts.go_append h, parts.go, if_pos rfl, parts.go_eq_append]
  simp [parts]

/-- A path without a slash is one part. -/
theorem parts_of_not_mem {n : Octets} (h : slash ∉ n) : parts n = [n] := by
  have := parts.go_append h [] [] []
  simpa [parts, parts.go] using this

/-- The parts of a path in which a slash stands before every name. -/
theorem parts_flatMap {names : List Octets} (h : ∀ n ∈ names, slash ∉ n) :
    parts (names.flatMap (slash :: ·)) = [] :: names := by
  induction names with
  | nil => exact parts_of_not_mem List.not_mem_nil
  | cons n names ih =>
      have ih := ih fun m hm => h m (List.mem_cons_of_mem n hm)
      have hn : slash ∉ n := h n List.mem_cons_self
      have hhead := parts_append_cons (n := []) List.not_mem_nil (n ++ names.flatMap (slash :: ·))
      rw [List.nil_append] at hhead
      rw [List.flatMap_cons, List.cons_append, hhead]
      cases names with
      | nil => simp [parts_of_not_mem hn]
      | cons m names =>
          have htail := parts_append_cons (n := []) List.not_mem_nil (m ++ names.flatMap (slash :: ·))
          rw [List.nil_append] at htail
          rw [List.flatMap_cons, List.cons_append, htail] at ih
          rw [List.flatMap_cons, List.cons_append, parts_append_cons hn, (List.cons_eq_cons.1 ih).2]

theorem IsName.ofPart {n : Octets} (h : IsName n) : Step.ofPart n = .name n := by
  rw [Step.ofPart, if_neg h.ne_here, if_neg h.ne_parent]

end NativePath

namespace FileTree

open NativePath

/-- The path from the root spells out the names of the place. -/
theorem pathTo_append (dir : Place) (n : Octets) :
    pathTo (dir ++ [n]) = (dir.flatMap fun m => slash :: m) ++ slash :: n := by
  simp [pathTo]

/-- The steps of the path from the root are the names of the place. -/
theorem steps_pathTo {place : Place} (h : ∀ n ∈ place, IsName n) :
    (pathTo place).steps = place.map Step.name := by
  have hparts : (pathTo place).parts.filter (· ≠ []) = place := by
    by_cases hroot : place = []
    · subst hroot
      rfl
    · rw [pathTo, if_neg hroot, parts_flatMap fun n hn => (h n hn).slash_not_mem]
      rw [List.filter_cons_of_neg (by simp), List.filter_eq_self]
      intro n hn
      simpa using (h n hn).ne_nil
  rw [steps, hparts]
  exact List.map_congr_left fun n hn => (h n hn).ofPart

theorem isAbsolute_pathTo (place : Place) : (pathTo place).isAbsolute = true := by
  cases place <;> simp [pathTo, isAbsolute]

theorem pathTo_ne_nil (place : Place) : pathTo place ≠ [] := by
  cases place <;> simp [pathTo]

theorem endsInSlash_pathTo {dir : Place} {n : Octets} (h : IsName n) :
    (pathTo (dir ++ [n])).endsInSlash = false := by
  obtain ⟨m, b, rfl⟩ := List.eq_nil_or_concat' n |>.resolve_left h.ne_nil
  have hb : b ≠ slash := by
    intro heq
    subst heq
    exact h.slash_not_mem (by simp)
  have hlast : (pathTo (dir ++ [m ++ [b]])).getLast? = some b := by
    rw [pathTo_append, ← List.cons_append, ← List.append_assoc, List.getLast?_concat]
  simp [endsInSlash, hlast, hb]

/-! ## File names -/

/-- A path that ends in a name has nothing idle at its end. -/
theorem dropIdleEnd_append {n : Octets} (h : IsName n) (rest : Octets) :
    dropIdleEnd (n.reverse ++ rest) = n.reverse ++ rest := by
  obtain ⟨m, b, rfl⟩ := List.eq_nil_or_concat' n |>.resolve_left h.ne_nil
  have hslash := h.slash_not_mem
  simp only [List.mem_append, List.mem_singleton, not_or] at hslash
  have hidle : ¬ (b = dot ∧ (m.reverse ++ rest).head? = some slash) := by
    intro h
    rcases h with ⟨rfl, hhead⟩
    obtain rfl | ⟨m, c, rfl⟩ := List.eq_nil_or_concat' m
    · exact h.ne_here rfl
    · simp_all
  rw [List.reverse_append, List.reverse_singleton, List.singleton_append, List.cons_append,
    dropIdleEnd, if_neg (Ne.symm hslash.2), if_neg hidle]

theorem splitLast_pathTo {dir : Place} {n : Octets} (h : IsName n) :
    splitLast (pathTo (dir ++ [n])) = (n.reverse, slash :: (dir.flatMap fun m => slash :: m).reverse) := by
  have hname : ∀ b ∈ n.reverse, (decide (b ≠ slash)) = true := by
    intro b hb
    rw [decide_eq_true_eq]
    intro heq
    subst heq
    exact h.slash_not_mem (List.mem_reverse.1 hb)
  rw [splitLast, pathTo_append, List.reverse_append, List.reverse_cons, List.append_assoc,
    dropIdleEnd_append h, List.span_eq_takeWhile_dropWhile, List.takeWhile_append_of_pos hname,
    List.dropWhile_append_of_pos hname]
  simp

/-- The file name of the path from the root is the last name of the place. -/
theorem fileName?_pathTo {dir : Place} {n : Octets} (h : IsName n) :
    fileName? (pathTo (dir ++ [n])) = some n := by
  simp [fileName?, splitLast_pathTo h, h.ne_nil, h.ne_here, h.ne_parent]

/-- Above the path from the root stands the path to the directory. -/
theorem parent_pathTo {dir : Place} {n : Octets} (hdir : ∀ m ∈ dir, IsName m) (h : IsName n) :
    NativePath.parent (pathTo (dir ++ [n])) = pathTo dir := by
  rw [NativePath.parent, splitLast_pathTo h]
  obtain rfl | ⟨above, m, rfl⟩ := List.eq_nil_or_concat' dir
  · rfl
  · have hm : IsName m := hdir m (by simp)
    have hroot := dropIdleEnd_append hm (slash :: (above.flatMap fun m => slash :: m).reverse)
    rw [dropIdleEnd, if_pos rfl, if_neg (by simp), List.flatMap_append, List.reverse_append]
    simp only [List.flatMap_cons, List.flatMap_nil, List.append_nil, List.reverse_cons,
      List.append_assoc, List.singleton_append, hroot]
    simp [pathTo_append]

/-- Another file name leads to another entry of the same directory. -/
theorem withFileName_pathTo {dir : Place} {n : Octets} (hdir : ∀ m ∈ dir, IsName m) (h : IsName n)
    (m : Octets) : withFileName (pathTo (dir ++ [n])) m = pathTo (dir ++ [m]) := by
  have hjoin : withFileName (pathTo (dir ++ [n])) m = join (pathTo dir) m := by
    rw [withFileName, fileName?_pathTo h, parent_pathTo hdir h]
  rw [hjoin]
  obtain rfl | ⟨above, k, rfl⟩ := List.eq_nil_or_concat' dir
  · simp [join, pathTo, endsInSlash]
  · have hk : IsName k := hdir k (by simp)
    rw [join, if_neg (pathTo_ne_nil _), endsInSlash_pathTo hk, if_neg Bool.false_ne_true,
      pathTo_append (above ++ [k]) m]
    simp [pathTo_append]

end FileTree

namespace Storage

open NativePath FileTree

theorem mem_of_mem_ofNat {c : Char} {k : ℕ} (h : c ∈ Text.ofNat k) : c.isDigit = true :=
  Nat.isDigit_of_mem_toDigits (by decide) (by decide) h

/-- The name of the temporary file for a name, before it is encoded. -/
def temporaryText (pid : ℕ) (n : Octets) : Text :=
  '.' :: Utf8.decodeLossy n ++ '.' :: Text.ofNat pid ++ ".tmp".toList

theorem temporaryName_pathTo (pid : ℕ) {dir : Place} {n : Octets} (h : IsName n) :
    temporaryName pid (pathTo (dir ++ [n])) = Utf8.encode (temporaryText pid n) := by
  rw [temporaryName, fileName?_pathTo h]
  rfl

/-- An octet below 128 of the temporary name that is neither a full stop, a digit nor a letter of its ending
is an octet of the name. -/
theorem mem_of_mem_temporaryText {pid : ℕ} {n : Octets} {b : UInt8} (hb : b.toNat < 0x80)
    (hother : ∀ c : Char, c.isDigit = true ∨ c ∈ ".tmp".toList → c.toNat ≠ b.toNat)
    (h : b ∈ Utf8.encode (temporaryText pid n)) : b ∈ n := by
  obtain ⟨c, hc, hcb⟩ := Utf8.exists_mem_of_mem_encode hb h
  have hc : c ∈ Utf8.decodeLossy n ∨ c.isDigit = true ∨ c ∈ ".tmp".toList := by
    simp only [temporaryText, List.mem_append, List.mem_cons] at hc
    rcases hc with ((rfl | hc) | rfl | hc) | hc
    · exact Or.inr (Or.inr (by decide))
    · exact Or.inl hc
    · exact Or.inr (Or.inr (by decide))
    · exact Or.inr (Or.inl (mem_of_mem_ofNat hc))
    · exact Or.inr (Or.inr hc)
  rcases hc with hc | hc
  · obtain ⟨a, ha, hac⟩ := Utf8.exists_mem_of_mem_decodeLossy (by omega) hc
    have hab : a = b := UInt8.toNat_inj.1 (by omega)
    exact hab ▸ ha
  · exact absurd hcb (hother c hc)

/-- The temporary name can stand in a directory. -/
theorem isName_temporaryText (pid : ℕ) {n : Octets} (hslash : slash ∉ n) (hnul : 0 ∉ n) :
    IsName (Utf8.encode (temporaryText pid n)) := by
  have hlong : 6 ≤ (temporaryText pid n).length := by
    have htail : ".tmp".toList.length = 4 := rfl
    simp only [temporaryText, List.length_append, List.length_cons, htail]
    omega
  have hother : ∀ b : UInt8, b.toNat = 0x2F ∨ b.toNat = 0 →
      ∀ c : Char, c.isDigit = true ∨ c ∈ ".tmp".toList → c.toNat ≠ b.toNat := by
    intro b hb c hc heq
    rcases hc with hc | hc
    · simp only [Char.isDigit, Bool.and_eq_true, decide_eq_true_eq, ge_iff_le, UInt32.le_iff_toNat_le] at hc
      have hval : c.val.toNat = c.toNat := rfl
      have hzero : ('0' : Char).val.toNat = 48 := rfl
      omega
    · have htail : ".tmp".toList = ['.', 't', 'm', 'p'] := rfl
      simp only [htail, List.mem_cons, List.not_mem_nil, or_false] at hc
      have hchar : 46 ≤ c.toNat ∧ c.toNat ≠ 0x2F := by
        rcases hc with rfl | rfl | rfl | rfl <;> exact ⟨by decide, by decide⟩
      omega
  have hne : ∀ m : Text, m.length < 6 → Utf8.encode (temporaryText pid n) ≠ Utf8.encode m := by
    intro m hm heq
    rw [Utf8.encode_injective heq] at hlong
    omega
  exact {
    ne_nil := hne [] (by decide)
    slash_not_mem := fun hmem => hslash
      (mem_of_mem_temporaryText (by decide) (hother slash (Or.inl rfl)) hmem)
    nul_not_mem := fun hmem => hnul
      (mem_of_mem_temporaryText (by decide) (hother 0 (Or.inr rfl)) hmem)
    ne_here := hne ['.'] (by decide)
    ne_parent := hne ['.', '.'] (by decide) }

/-- The temporary file never takes the name it stands in for. -/
theorem encode_temporaryText_ne (pid : ℕ) (n : Octets) : Utf8.encode (temporaryText pid n) ≠ n := by
  intro h
  have htext : Utf8.decodeLossy n = temporaryText pid n := by
    conv_lhs => rw [← h]
    exact Utf8.decodeLossy_encode _
  have hlen := congrArg List.length htext
  simp only [temporaryText, List.length_append, List.length_cons] at hlen
  omega

/-- Where the temporary file for the file at a place stands. -/
def temporaryPlace (pid : ℕ) (place : Place) : Place :=
  place.dropLast ++ [temporaryName pid (pathTo place)]

/-- The temporary file for a place of names has another name in the same directory. -/
theorem exists_temporaryPlace_eq (pid : ℕ) (dir : Place) {n : Octets} (h : IsName n) :
    ∃ k, temporaryPlace pid (dir ++ [n]) = dir ++ [k] ∧ IsName k ∧ k ≠ n := by
  refine ⟨Utf8.encode (temporaryText pid n), ?_, isName_temporaryText pid h.slash_not_mem h.nul_not_mem,
    encode_temporaryText_ne pid n⟩
  rw [temporaryPlace, List.dropLast_concat, temporaryName_pathTo pid h]

/-- The temporary file for a path from the root stands beside it. -/
theorem temporaryPath_pathTo (pid : ℕ) {dir : Place} {n : Octets} (hdir : ∀ m ∈ dir, IsName m)
    (h : IsName n) :
    temporaryPath pid (pathTo (dir ++ [n])) = pathTo (temporaryPlace pid (dir ++ [n])) := by
  rw [temporaryPath, withFileName_pathTo hdir h, temporaryPlace, List.dropLast_concat]

end Storage
end DocSplice
