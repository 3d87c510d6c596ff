/-
  UMqtt.Crt.Strings — C strings, `mallocAndStrcpy_s` (uMQTT/ports/src/crt_abstractions.c) and
  the part of `STRING` (uMQTT/ports/src/strings.c) that trace logs are made with.
-/

import Mathlib
import UMqtt.Crt.Buffer

namespace UMqtt.Crt

/-- What a `const char*` points to: the bytes in front of the terminating NUL. -/
structure CString where
  bytes : List UInt8
  noNul : 0 ∉ bytes
  deriving DecidableEq, Repr

namespace CString

def ofBlock (block : List UInt8) : CString :=
  ⟨block.takeWhile (· ≠ 0), fun h => by simpa using List.mem_takeWhile_imp h⟩

def strlen (s : CString) : Nat := s.bytes.length

theorem ofBlock_noNul {block : List UInt8} (h : 0 ∉ block) : (ofBlock block).bytes = block := by
  refine List.takeWhile_eq_self_iff.mpr fun b hb => ?_
  simp only [decide_not, Bool.not_eq_true', decide_eq_false_iff_not]
  rintro rfl; exact h hb

theorem ext {s t : CString} (h : s.bytes = t.bytes) : s = t := by
  cases s; cases t; cases h; rfl

theorem ofBlock_bytes (s : CString) : ofBlock s.bytes = s := ext (ofBlock_noNul s.noNul)

end CString

/-- What `mallocAndStrcpy_s` does, of a source that is not NULL. Its `memset` comes before
    the test for NULL, so a failed allocation is a write through NULL. -/
inductive StrcpyResult where
  | copied (destination : CString)
  | nullWrite
  deriving DecidableEq, Repr

def mallocAndStrcpy (source : CString) (ms : Mallocs) : StrcpyResult × Mallocs :=
  match malloc (source.strlen + 1) ms with
  | (none, ms) => (.nullWrite, ms)
  | (some _, ms) => (.copied source, ms)

theorem mallocAndStrcpy_succeed {ms : Mallocs} (h : Succeed ms) (source : CString) :
    ∃ ms', mallocAndStrcpy source ms = (.copied source, ms') ∧ Succeed ms' := by
  obtain ⟨block, ms', hm, -, hs⟩ := malloc_succeed h (source.strlen + 1)
  exact ⟨ms', by simp only [mallocAndStrcpy, hm], hs⟩

/-! ## STRING -/

/-- `STRING_HANDLE`: the text, NULL is `none`. -/
abbrev StringHandle := Option (List UInt8)

def ascii (s : String) : List UInt8 := s.toList.map fun c => UInt8.ofNat c.toNat

/-- `%d` and `%zu`, of a value that is not negative. -/
def decimal (n : Nat) : List UInt8 := ascii (toString n)

def stringNew (ms : Mallocs) : StringHandle × Mallocs :=
  match malloc 4 ms with
  | (none, ms) => (none, ms)
  | (some _, ms) =>
    match malloc 1 ms with
    | (none, ms) => (none, ms)
    | (some _, ms) => (some [], ms)

/-- `STRING_construct_sprintf`, of what the format makes of its arguments. -/
def stringConstructSprintf (text : List UInt8) (ms : Mallocs) : StringHandle × Mallocs :=
  if text = [] then stringNew ms
  else match malloc 4 ms with
    | (none, ms) => (none, ms)
    | (some _, ms) =>
      match malloc (text.length + 1) ms with
      | (none, ms) => (none, ms)
      | (some _, ms) => (some text, ms)

/-- Give a string another text; it keeps its own without memory for that. -/
def stringRealloc (s text : List UInt8) (ms : Mallocs) : Nat × StringHandle × Mallocs :=
  match malloc (text.length + 1) ms with
  | (none, ms) => (failure, some s, ms)
  | (some _, ms) => (0, some text, ms)

/-- `STRING_sprintf`, of what the format makes of its arguments. -/
def stringSprintf (handle : StringHandle) (text : List UInt8) (ms : Mallocs) : Nat × StringHandle × Mallocs :=
  match handle with
  | none => (failure, none, ms)
  | some s => if text = [] then (0, some s, ms) else stringRealloc s (s ++ text) ms

def stringCopy (handle : StringHandle) (text : List UInt8) (ms : Mallocs) : Nat × StringHandle × Mallocs :=
  match handle with
  | none => (failure, none, ms)
  | some s => stringRealloc s text ms

def stringConcat (handle other : StringHandle) (ms : Mallocs) : Nat × StringHandle × Mallocs :=
  match handle, other with
  | some s, some text => stringRealloc s (s ++ text) ms
  | _, _ => (failure, handle, ms)

theorem stringNew_succeed {ms : Mallocs} (h : Succeed ms) : Succeed (stringNew ms).2 := by
  obtain ⟨b1, ms1, h1, -, hs1⟩ := malloc_succeed h 4
  obtain ⟨b2, ms2, h2, -, hs2⟩ := malloc_succeed hs1 1
  simp only [stringNew, h1, h2]
  exact hs2

theorem stringConstructSprintf_succeed {ms : Mallocs} (h : Succeed ms) (text : List UInt8) :
    Succeed (stringConstructSprintf text ms).2 := by
  unfold stringConstructSprintf
  split
  · exact stringNew_succeed h
  · obtain ⟨b1, ms1, h1, -, hs1⟩ := malloc_succeed h 4
    obtain ⟨b2, ms2, h2, -, hs2⟩ := malloc_succeed hs1 (text.length + 1)
    simp only [h1, h2]
    exact hs2

theorem stringRealloc_succeed {ms : Mallocs} (h : Succeed ms) (s text : List UInt8) :
    Succeed (stringRealloc s text ms).2.2 := by
  obtain ⟨block, ms', hm, -, hs⟩ := malloc_succeed h (text.length + 1)
  simp only [stringRealloc, hm]
  exact hs

theorem stringSprintf_succeed {ms : Mallocs} (h : Succeed ms) (handle : StringHandle) (text : List UInt8) :
    Succeed (stringSprintf handle text ms).2.2 := by
  unfold stringSprintf
  split
  · exact h
  · split
    · exact h
    · exact stringRealloc_succeed h _ _

theorem stringCopy_succeed {ms : Mallocs} (h : Succeed ms) (handle : StringHandle) (text : List UInt8) :
    Succeed (stringCopy handle text ms).2.2 := by
  unfold stringCopy
  split
  · exact h
  · exact stringRealloc_succeed h _ _

theorem stringConcat_succeed {ms : Mallocs} (h : Succeed ms) (handle other : StringHandle) :
    Succeed (stringConcat handle other ms).2.2 := by
  unfold stringConcat
  split
  · exact stringRealloc_succeed h _ _
  · exact h

end UMqtt.Crt
