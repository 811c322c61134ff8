import DocSplice.Path.Native

/-!
# Portable paths

A portable path is a text in which `/` alone stands between names. Whatever is given as a path is read as
text, with a replacement character for each stretch of octets that encodes none, and its backslashes are
turned into slashes.
-/
namespace DocSplice

/-- A path written with forward slashes. -/
structure PortablePath where
  text : Text
deriving DecidableEq, Repr

namespace PortablePath

/-- The portable path for a path given as text. -/
def ofText (t : Text) : PortablePath := ⟨t.map fun c => if c = '\\' then '/' else c⟩

/-- The portable path for a path given as octets. -/
def ofNative (path : NativePath) : PortablePath := ofText (Utf8.decodeLossy path)

/-- The path as the file system takes it. -/
def native (p : PortablePath) : NativePath := Utf8.encode p.text

theorem not_mem_ofText (t : Text) : '\\' ∉ (ofText t).text := by
  simp only [ofText, List.mem_map, not_exists, not_and]
  intro c _
  split <;> simp_all

/-- A path without backslashes is portable as it stands. -/
theorem ofText_of_not_mem {t : Text} (h : '\\' ∉ t) : ofText t = ⟨t⟩ := by
  have : t.map (fun c => if c = '\\' then '/' else c) = t.map id := by
    refine List.map_congr_left fun c hc => if_neg ?_
    rintro rfl
    exact h hc
  simpa [ofText] using this

/-- The text of a portable path stands for the same path. -/
theorem ofText_text (t : Text) : ofText (ofText t).text = ofText t :=
  ofText_of_not_mem (not_mem_ofText t)

theorem text_ofText_append (s t : Text) :
    (ofText (s ++ t)).text = (ofText s).text ++ (ofText t).text := by simp [ofText]

end PortablePath
end DocSplice
