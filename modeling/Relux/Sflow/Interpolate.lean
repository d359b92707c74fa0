import Relux.HashMap
import Relux.Text
import Relux.ByteOffsets
import Relux.TextParts

/-! The values of the flow scripts, and the state their execution carries. -/

namespace Relux

namespace Sflow

inductive SflowValue where
  | string (s : String)
  | list (items : List SflowValue)
  | map (pairs : List (String × SflowValue))

namespace SflowValue

mutual

def toDisplay : SflowValue → String
  | .string s => s
  | .list items => "|".intercalate (displayItems items)
  | .map pairs => ";".intercalate (displayPairs pairs)

def displayItems : List SflowValue → List String
  | [] => []
  | v :: vs => toDisplay v :: displayItems vs

/-- Each pair as `k=v`. -/
def displayPairs : List (String × SflowValue) → List String
  | [] => []
  | (k, v) :: ps => (k ++ "=" ++ toDisplay v) :: displayPairs ps

end

instance : Inhabited SflowValue := ⟨.string ""⟩

end SflowValue

open SflowValue in
def listItemsFrom : SflowValue → List SflowValue
  | .list items => items
  | .string s =>
    if s = "" then []
    else (splitFields (· == '|') s.toList).map (fun seg => .string (String.ofList seg))
  | .map pairs => (displayPairs pairs).map .string

def mapPairsFrom : SflowValue → List (String × SflowValue)
  | .map pairs => pairs
  | .string s =>
    if s = "" then []
    else (splitFields (· == ';') s.toList).map (fun seg =>
      match splitOnce '=' seg with
      | some (k, v) => (String.ofList k, .string (String.ofList v))
      | none => (String.ofList seg, .string ""))
  | .list _ => []

inductive CatchKind where
  | timeout
  | meshError
  | policyDenied
  | responderError
  | any
  deriving DecidableEq

def CatchKind.asStr : CatchKind → String
  | .timeout => "timeout"
  | .meshError => "mesh_error"
  | .policyDenied => "policy_denied"
  | .responderError => "responder_error"
  | .any => "any"

structure RuntimeError where
  kind : CatchKind
  errorKind : Nat
  message : String
  line : Nat
  deriving DecidableEq

def RuntimeError.ofLocal (line : Nat) (message : String) : RuntimeError := ⟨.any, 0, message, line⟩

structure StepRecord where
  status : String
  result : String
  deriving DecidableEq

structure ExecState where
  vars : HashMap String SflowValue
  internal : HashMap String String
  namedSteps : HashMap String StepRecord
  lastStep : StepRecord
  loopIter : Option Nat
  flowResult : String
  currentError : Option RuntimeError

def MAX_VARS : Nat := 50

namespace ExecState

def new : ExecState := ⟨.empty, .empty, .empty, ⟨"", ""⟩, none, "", none⟩

def setVar (st : ExecState) (name : String) (value : SflowValue) (line : Nat) :
    Except RuntimeError ExecState :=
  if (st.vars.get? name).isNone ∧ MAX_VARS ≤ st.vars.len then
    .error (.ofLocal line s!"variable cap exceeded ({MAX_VARS} max per flow)")
  else .ok { st with vars := st.vars.insert name value }

def setInternal (st : ExecState) (name value : String) : ExecState :=
  { st with internal := st.internal.insert name value }

def clearInternal (st : ExecState) (name : String) : ExecState :=
  { st with internal := st.internal.remove name }

def varText (st : ExecState) (name : String) : String :=
  ((st.vars.get? name).map SflowValue.toDisplay).getD ""

def stepResult (st : ExecState) (name : String) : String :=
  ((st.namedSteps.get? name).map StepRecord.result).getD ""

def stepStatus (st : ExecState) (name : String) : String :=
  ((st.namedSteps.get? name).map StepRecord.status).getD ""

def lookupPlaceholder (st : ExecState) (key : String) : String :=
  if key = "loop.iter" then (st.loopIter.map toString).getD ""
  else if key = "result" then st.lastStep.result
  else if key = "status" then st.lastStep.status
  else if key = "error.kind" ∨ key = "error.message" then (st.internal.get? key).getD ""
  else match "var.".toList.isPrefixOf? key.toList with
    | some name => st.varText (String.ofList name)
    | none =>
      match "step.".toList.isPrefixOf? key.toList with
      | some rest =>
        match ".result".toList.isSuffixOf? rest with
        | some name => st.stepResult (String.ofList name)
        | none =>
          match ".status".toList.isSuffixOf? rest with
          | some name => st.stepStatus (String.ofList name)
          | none => ""
      | none => st.varText key

end ExecState

end Sflow

end Relux

/-! The placeholders of a literal. The loop goes over the bytes of the literal, and puts what is
outside of the placeholders byte for byte into the result. -/

namespace Relux

namespace Sflow

namespace ExecState

/-- The loop from the byte `i` on, with what it has put out; the first argument bounds its turns.
There is no result where a slice would be out of range. -/
def interpolateLoop (st : ExecState) (s : List Char) : Nat → Nat → List Char → Option (List Char)
  | 0, _, out => some out
  | turns + 1, i, out =>
    match (utf8Bytes s)[i]? with
    | none => some out
    | some b =>
      if b = 0x24 ∧ (utf8Bytes s)[i + 1]? = some 0x7B then do
        let rest ← sliceFrom s (i + 2)
        match findChar '}' rest with
        | none =>
          let tail ← sliceFrom s i
          some (out ++ tail)
        | some off =>
          let finish := i + 2 + off
          let key ← slice s (i + 2) finish
          interpolateLoop st s turns (finish + 1)
            (out ++ (st.lookupPlaceholder (String.ofList key)).toList)
      else interpolateLoop st s turns (i + 1) (out ++ [Char.ofNat b.toNat])

def interpolate (st : ExecState) (s : String) : Option String :=
  (interpolateLoop st s.toList (utf8Bytes s.toList).length 0 []).map String.ofList

end ExecState

variable {s : List Char}

theorem splitOnce_length {sep : Char} {before after : List Char}
    (h : splitOnce sep s = some (before, after)) : after.length < s.length := by
  obtain ⟨rfl, -⟩ := splitOnce_eq_some.mp h
  simp
  omega

inductive Piece where
  | char (c : Char)
  | placeholder (key : List Char)
  /-- An opener that is not closed, with all that follows it. -/
  | unclosed (rest : List Char)

def pieces : List Char → List Piece
  | [] => []
  | c :: cs =>
    if "$\x7b".toList.isPrefixOf (c :: cs) then
      match _h : splitOnce '}' (cs.drop 1) with
      | none => [.unclosed (cs.drop 1)]
      | some (key, after) => .placeholder key :: pieces after
    else .char c :: pieces cs
  termination_by s => s.length
  decreasing_by
    · have hlen := splitOnce_length _h
      simp only [List.length_drop, List.length_cons] at hlen ⊢
      omega
    · simp

def Piece.fill (put : Char → List Char) (value : List Char → List Char) : Piece → List Char
  | .char c => put c
  | .placeholder key => value key
  | .unclosed rest => '$' :: '{' :: rest

/-- A literal with each closed placeholder replaced by its value and everything else unchanged. -/
def substitute (value : List Char → List Char) (s : List Char) : List Char :=
  (pieces s).flatMap (Piece.fill (fun c => [c]) value)

theorem opener_iff :
    "$\x7b".toList.isPrefixOf s = true ↔ ∃ rest, s = '$' :: '{' :: rest := by
  rw [List.isPrefixOf_iff_prefix]
  constructor
  · rintro ⟨rest, rfl⟩
    exact ⟨rest, rfl⟩
  · rintro ⟨rest, rfl⟩
    exact ⟨rest, rfl⟩

theorem pieces_closed {key after : List Char} (h : '}' ∉ key) :
    pieces ('$' :: '{' :: (key ++ '}' :: after)) = .placeholder key :: pieces after := by
  have hopen : "$\x7b".toList.isPrefixOf ('$' :: '{' :: (key ++ '}' :: after)) = true :=
    opener_iff.mpr ⟨_, rfl⟩
  have hsplit : splitOnce '}' (('{' :: (key ++ '}' :: after)).drop 1) = some (key, after) :=
    splitOnce_append h after
  rw [pieces, if_pos hopen]
  split
  next hnone =>
    rw [hsplit] at hnone
    cases hnone
  next key' after' hsome =>
    rw [hsplit] at hsome
    obtain ⟨rfl, rfl⟩ := Prod.mk.inj (Option.some.inj hsome)
    rfl

theorem pieces_unclosed {rest : List Char} (h : '}' ∉ rest) :
    pieces ('$' :: '{' :: rest) = [.unclosed rest] := by
  have hopen : "$\x7b".toList.isPrefixOf ('$' :: '{' :: rest) = true := opener_iff.mpr ⟨_, rfl⟩
  have hsplit : splitOnce '}' (('{' :: rest).drop 1) = none := splitOnce_eq_none.mpr h
  rw [pieces, if_pos hopen]
  split
  · rfl
  next hsome =>
    rw [hsplit] at hsome
    cases hsome

variable {c : Char}

theorem pieces_char {cs : List Char} (h : "$\x7b".toList.isPrefixOf (c :: cs) = false) :
    pieces (c :: cs) = .char c :: pieces cs := by
  rw [pieces, if_neg (Bool.eq_false_iff.mp h)]

theorem literal_induction {P : List Char → Prop} (nil : P [])
    (closed : ∀ key after, '}' ∉ key → P after → P ('$' :: '{' :: (key ++ '}' :: after)))
    (unclosed : ∀ rest, '}' ∉ rest → P ('$' :: '{' :: rest))
    (char : ∀ c cs, "$\x7b".toList.isPrefixOf (c :: cs) = false → P cs → P (c :: cs)) (s : List Char) :
    P s := by
  induction hlen : s.length using Nat.strong_induction_on generalizing s with
  | _ n ih =>
    cases s with
    | nil => exact nil
    | cons c cs =>
      cases hopen : "$\x7b".toList.isPrefixOf (c :: cs) with
      | false => exact char c cs hopen (ih cs.length (by simp [← hlen]) cs rfl)
      | true =>
        obtain ⟨rest, hrest⟩ := opener_iff.mp hopen
        rw [hrest]
        cases hsplit : splitOnce '}' rest with
        | none => exact unclosed rest (splitOnce_eq_none.mp hsplit)
        | some parts =>
          obtain ⟨heq, hfree⟩ := splitOnce_eq_some.mp hsplit
          rw [heq]
          refine closed parts.1 parts.2 hfree (ih parts.2.length ?_ parts.2 rfl)
          rw [← hlen, hrest, heq]
          simp
          omega

theorem substitute_plain (value : List Char → List Char)
    (h : containsChars "$\x7b".toList s = false) : substitute value s = s := by
  induction s with
  | nil => simp [substitute, pieces]
  | cons c cs ih =>
    unfold containsChars at h
    rw [Bool.or_eq_false_iff] at h
    unfold substitute at ih ⊢
    rw [pieces_char h.1, List.flatMap_cons, ih h.2]
    rfl

def byteChars (c : Char) : List Char := (String.utf8EncodeChar c).map (fun b => Char.ofNat b.toNat)

theorem byteChars_ascii (h : c.toNat < 128) : byteChars c = [c] := by
  unfold byteChars
  rw [utf8EncodeChar_ascii h, List.map_singleton, UInt8.toNat_ofNat',
    Nat.mod_eq_of_lt (by omega), Char.ofNat_toNat]

theorem length_byteChars (c : Char) : (byteChars c).length = c.utf8Size := by
  unfold byteChars
  rw [List.length_map, String.length_utf8EncodeChar]

namespace ExecState

variable (st : ExecState)

def value (key : List Char) : List Char := (st.lookupPlaceholder (String.ofList key)).toList

theorem interpolateLoop_end {s : List Char} {turns i : Nat} (h : byteLen s ≤ i) (out : List Char) :
    st.interpolateLoop s turns i out = some out := by
  have hnone : (utf8Bytes s)[i]? = none := by
    rw [List.getElem?_eq_none_iff, length_utf8Bytes]
    exact h
  cases turns with
  | zero => rfl
  | succ turns => rw [interpolateLoop, hnone]

theorem interpolateLoop_bytes {s : List Char} {bytes : List UInt8} :
    ∀ {turns i : Nat} (out : List Char), bytes.length ≤ turns →
      bytes <+: (utf8Bytes s).drop i →
      (∀ j b, bytes[j]? = some b → ¬(b = 0x24 ∧ (utf8Bytes s)[i + j + 1]? = some 0x7B)) →
      st.interpolateLoop s turns i out =
        st.interpolateLoop s (turns - bytes.length) (i + bytes.length)
          (out ++ bytes.map (fun b => Char.ofNat b.toNat)) := by
  induction bytes with
  | nil =>
    intro turns i out _ _ _
    simp
  | cons b bytes ih =>
    intro turns i out hturns hprefix hplain
    obtain ⟨turns, rfl⟩ : ∃ n, turns = n + 1 := ⟨turns - 1, by simp at hturns; omega⟩
    obtain ⟨rest, hrest⟩ := hprefix
    have hget : (utf8Bytes s)[i]? = some b := by
      have hhead := congrArg (fun l => l[0]?) hrest
      simpa [List.getElem?_drop] using hhead.symm
    have hnext : bytes <+: (utf8Bytes s).drop (i + 1) := by
      refine ⟨rest, ?_⟩
      have htail := congrArg List.tail hrest
      simpa [List.tail_drop] using htail
    have hfirst := hplain 0 b rfl
    rw [interpolateLoop, hget]
    simp only []
    rw [if_neg hfirst, ih _ (by simpa using hturns) hnext]
    · have hlen : (b :: bytes).length = bytes.length + 1 := rfl
      have hturns' : turns + 1 - (bytes.length + 1) = turns - bytes.length := by omega
      have hi : i + 1 + bytes.length = i + (bytes.length + 1) := by omega
      rw [hlen, hturns', hi, List.append_assoc]
      rfl
    · intro j b' hj
      have hlater := hplain (j + 1) b' hj
      have hi : i + (j + 1) + 1 = i + 1 + j + 1 := by omega
      rw [hi] at hlater
      exact hlater

end ExecState

theorem utf8Bytes_at {front rest : List Char} (h : c.toNat < 128) :
    (utf8Bytes (front ++ c :: rest))[byteLen front]? = some (UInt8.ofNat c.toNat) := by
  have hdrop := congrArg (fun l => l[0]?) (drop_utf8Bytes front (c :: rest))
  simpa [List.getElem?_drop, utf8EncodeChar_ascii h] using hdrop

theorem ofNat_toNat_inj {d : Char} (hc : c.toNat < 128) (hd : d.toNat < 128)
    (h : UInt8.ofNat c.toNat = UInt8.ofNat d.toNat) : c = d := by
  have hnat := congrArg UInt8.toNat h
  rw [UInt8.toNat_ofNat', UInt8.toNat_ofNat', Nat.mod_eq_of_lt (by omega),
    Nat.mod_eq_of_lt (by omega)] at hnat
  rw [← Char.ofNat_toNat c, hnat, Char.ofNat_toNat]

theorem head_of_byte {d : Char} (hd : d.toNat < 128)
    (h : (utf8Bytes s)[0]? = some (UInt8.ofNat d.toNat)) : ∃ rest, s = d :: rest := by
  cases s with
  | nil => cases h
  | cons c rest =>
    rw [utf8Bytes_cons] at h
    by_cases hc : c.toNat < 128
    · rw [utf8EncodeChar_ascii hc] at h
      exact ⟨rest, by rw [ofNat_toNat_inj hc hd (Option.some.inj h)]⟩
    · obtain ⟨b, bytes, hbytes⟩ :=
        List.exists_cons_of_ne_nil (String.utf8EncodeChar_ne_nil (c := c))
      have hmem : b ∈ String.utf8EncodeChar c := by
        rw [hbytes]
        exact List.mem_cons_self
      have hhigh := utf8EncodeChar_high (Nat.le_of_not_lt hc) b hmem
      rw [hbytes] at h
      rw [Option.some.inj h, UInt8.toNat_ofNat', Nat.mod_eq_of_lt (by omega)] at hhigh
      omega

theorem plain_bytes {front cs : List Char}
    (h : "$\x7b".toList.isPrefixOf (c :: cs) = false) {j : Nat} {b : UInt8}
    (hj : (String.utf8EncodeChar c)[j]? = some b) :
    ¬(b = 0x24 ∧ (utf8Bytes (front ++ c :: cs))[byteLen front + j + 1]? = some 0x7B) := by
  rintro ⟨rfl, hnext⟩
  by_cases hc : c.toNat < 128
  · rw [utf8EncodeChar_ascii hc] at hj
    cases j with
    | succ j => cases hj
    | zero =>
      have hdollar : c = '$' := ofNat_toNat_inj hc (by decide) (Option.some.inj hj)
      have hdrop := congrArg (fun l => l[1]?) (drop_utf8Bytes front (c :: cs))
      simp only [List.getElem?_drop] at hdrop
      rw [hnext, utf8Bytes_cons, utf8EncodeChar_ascii hc] at hdrop
      obtain ⟨rest, rfl⟩ := head_of_byte (by decide : '{'.toNat < 128) hdrop.symm
      rw [hdollar, opener_iff.mpr ⟨rest, rfl⟩] at h
      cases h
  · have hhigh := utf8EncodeChar_high (Nat.le_of_not_lt hc) _ (List.mem_of_getElem? hj)
    exact absurd hhigh (by decide)

namespace ExecState

variable (st : ExecState)

theorem interpolateLoop_eq (suf : List Char) : ∀ (front out : List Char) {turns : Nat},
    byteLen suf ≤ turns →
      st.interpolateLoop (front ++ suf) turns (byteLen front) out =
        some (out ++ (pieces suf).flatMap (Piece.fill byteChars st.value)) := by
  induction suf using literal_induction with
  | nil =>
    intro front out turns _
    rw [st.interpolateLoop_end (by simp)]
    simp [pieces]
  | closed key after hkey ih =>
    intro front out turns hturns
    have hdollar : '$'.utf8Size = 1 := rfl
    have hbrace : '{'.utf8Size = 1 := rfl
    have hclose : '}'.utf8Size = 1 := rfl
    obtain ⟨turns, rfl⟩ : ∃ n, turns = n + 1 := ⟨turns - 1, by simp [hdollar] at hturns; omega⟩
    have hs : front ++ '$' :: '{' :: (key ++ '}' :: after) =
        (front ++ ['$', '{']) ++ (key ++ '}' :: after) := by simp
    have hlen : byteLen front + 2 = byteLen (front ++ ['$', '{']) := by simp [hdollar, hbrace]
    have hfirst : (utf8Bytes (front ++ '$' :: '{' :: (key ++ '}' :: after)))[byteLen front]? =
        some 0x24 := utf8Bytes_at (by decide)
    have hsecond : (utf8Bytes (front ++ '$' :: '{' :: (key ++ '}' :: after)))[byteLen front + 1]? =
        some 0x7B := by
      have hat : (utf8Bytes (front ++ ['$'] ++ '{' :: (key ++ '}' :: after)))[
          byteLen (front ++ ['$'])]? = some 0x7B := utf8Bytes_at (by decide)
      simpa [hdollar] using hat
    have hrest : sliceFrom (front ++ '$' :: '{' :: (key ++ '}' :: after)) (byteLen front + 2) =
        some (key ++ '}' :: after) := by
      rw [hs, hlen]
      exact sliceFrom_append _ _
    have hslice : slice (front ++ '$' :: '{' :: (key ++ '}' :: after)) (byteLen front + 2)
        (byteLen front + 2 + byteLen key) = some key := by
      rw [hs, hlen]
      exact slice_append _ _ _
    rw [interpolateLoop, hfirst]
    simp only [hsecond, and_self, if_true, hrest, Option.bind_eq_bind, Option.bind_some,
      findChar_append hkey after, hslice]
    have hs' : front ++ '$' :: '{' :: (key ++ '}' :: after) =
        (front ++ '$' :: '{' :: (key ++ ['}'])) ++ after := by simp
    have hlen' : byteLen front + 2 + byteLen key + 1 =
        byteLen (front ++ '$' :: '{' :: (key ++ ['}'])) := by
      simp [hdollar, hbrace, hclose]
      omega
    rw [hs', hlen', ih]
    · rw [pieces_closed hkey, List.flatMap_cons, ← List.append_assoc]
      rfl
    · simp [hdollar, hbrace, hclose] at hturns
      omega
  | unclosed rest hrest =>
    intro front out turns hturns
    have hdollar : '$'.utf8Size = 1 := rfl
    have hbrace : '{'.utf8Size = 1 := rfl
    obtain ⟨turns, rfl⟩ : ∃ n, turns = n + 1 := ⟨turns - 1, by simp [hdollar] at hturns; omega⟩
    have hfirst : (utf8Bytes (front ++ '$' :: '{' :: rest))[byteLen front]? = some 0x24 :=
      utf8Bytes_at (by decide)
    have hsecond : (utf8Bytes (front ++ '$' :: '{' :: rest))[byteLen front + 1]? = some 0x7B := by
      have hat : (utf8Bytes (front ++ ['$'] ++ '{' :: rest))[byteLen (front ++ ['$'])]? =
          some 0x7B := utf8Bytes_at (by decide)
      simpa [hdollar] using hat
    have hfrom : sliceFrom (front ++ '$' :: '{' :: rest) (byteLen front + 2) = some rest := by
      have happend := sliceFrom_append (front ++ ['$', '{']) rest
      simpa [hdollar, hbrace] using happend
    have htail : sliceFrom (front ++ '$' :: '{' :: rest) (byteLen front) =
        some ('$' :: '{' :: rest) :=
      sliceFrom_append _ _
    rw [interpolateLoop, hfirst]
    simp only [hsecond, and_self, if_true, hfrom, Option.bind_eq_bind, Option.bind_some,
      findChar_none hrest, htail]
    rw [pieces_unclosed hrest]
    simp [Piece.fill]
  | char c cs hplain ih =>
    intro front out turns hturns
    rw [byteLen_cons] at hturns
    have hlen := String.length_utf8EncodeChar c
    have hprefix :
        String.utf8EncodeChar c <+: (utf8Bytes (front ++ c :: cs)).drop (byteLen front) := by
      rw [drop_utf8Bytes, utf8Bytes_cons]
      exact List.prefix_append _ _
    rw [st.interpolateLoop_bytes out (by omega) hprefix (fun j b => plain_bytes hplain)]
    have hs : front ++ c :: cs = (front ++ [c]) ++ cs := by simp
    have hnext : byteLen front + (String.utf8EncodeChar c).length = byteLen (front ++ [c]) := by
      simp
    rw [hs, hnext, ih _ _ (by omega), pieces_char hplain, List.flatMap_cons, List.append_assoc]
    rfl

theorem interpolate_eq (s : String) : st.interpolate s =
    some (String.ofList ((pieces s.toList).flatMap (Piece.fill byteChars st.value))) := by
  have hloop := st.interpolateLoop_eq s.toList [] [] (length_utf8Bytes s.toList).ge
  rw [byteLen_nil, List.nil_append, List.nil_append] at hloop
  unfold interpolate
  rw [hloop, Option.map_some]

end ExecState

/-- The characters outside of the placeholders, and before an opener that is not closed, are
ASCII. -/
def AsciiOutside (s : List Char) : Prop := ∀ c, Piece.char c ∈ pieces s → c.toNat < 128

theorem flatMap_fill_iff (value : List Char → List Char) (ps : List Piece) :
    ps.flatMap (Piece.fill byteChars value) = ps.flatMap (Piece.fill (fun c => [c]) value) ↔
      ∀ c, Piece.char c ∈ ps → c.toNat < 128 := by
  have hlen : ∀ qs : List Piece, (qs.flatMap (Piece.fill (fun c => [c]) value)).length ≤
      (qs.flatMap (Piece.fill byteChars value)).length := by
    intro qs
    induction qs with
    | nil => simp
    | cons q qs ih =>
      rw [List.flatMap_cons, List.flatMap_cons, List.length_append, List.length_append]
      refine Nat.add_le_add ?_ ih
      cases q with
      | char c =>
        simp only [Piece.fill, length_byteChars, List.length_singleton]
        exact c.utf8Size_pos
      | placeholder key => exact Nat.le_refl _
      | unclosed rest => exact Nat.le_refl _
  induction ps with
  | nil => simp
  | cons p ps ih =>
    rw [List.flatMap_cons, List.flatMap_cons]
    cases p with
    | placeholder key =>
      simp only [Piece.fill, List.append_cancel_left_eq, ih]
      simp
    | unclosed rest =>
      simp only [Piece.fill, List.append_cancel_left_eq, ih]
      simp
    | char c =>
      by_cases hc : c.toNat < 128
      · simp only [Piece.fill, byteChars_ascii hc, List.append_cancel_left_eq, ih]
        simp [hc]
      · -- A character outside of ASCII comes out as two characters or more.
        have hsize := utf8Size_high (Nat.le_of_not_lt hc)
        have hps := hlen ps
        constructor
        · intro heq
          have hlens := congrArg List.length heq
          simp only [Piece.fill, List.length_append, length_byteChars, List.length_singleton]
            at hlens
          omega
        · intro hall
          exact absurd (hall c List.mem_cons_self) hc

/-- The result is the literal with its placeholders replaced, exactly when all that is copied of
it is ASCII. -/
theorem interpolate_substitutes_iff (st : ExecState) (s : String) :
    (st.interpolate s = some (String.ofList (substitute st.value s.toList)) ∧
      (containsText s "$\x7b" = false → st.interpolate s = some s)) ↔ AsciiOutside s.toList := by
  have hiff : st.interpolate s = some (String.ofList (substitute st.value s.toList)) ↔
      AsciiOutside s.toList := by
    rw [st.interpolate_eq, Option.some.injEq, String.ofList_inj]
    exact flatMap_fill_iff st.value (pieces s.toList)
  constructor
  · rintro ⟨heq, -⟩
    exact hiff.mp heq
  · intro hascii
    refine ⟨hiff.mpr hascii, fun hplain => ?_⟩
    rw [hiff.mpr hascii, substitute_plain st.value hplain, String.ofList_toList]

/-- An accented letter comes out as two letters. -/
theorem interpolate_garbles : ¬∀ (st : ExecState) (s : String),
    st.interpolate s = some (String.ofList (substitute st.value s.toList)) := by
  intro h
  have hgarbled : ExecState.new.interpolate "é" = some "Ã©" := by decide
  have hplain := substitute_plain ExecState.new.value
    (by decide : containsChars "$\x7b".toList "é".toList = false)
  rw [h, hplain] at hgarbled
  exact absurd hgarbled (by decide)

end Sflow

end Relux
