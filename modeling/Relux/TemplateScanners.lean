import Relux.WorkflowValidator

/-! The two scanners of templates, the validator's `extract_vars` and the executor's `interpolate`,
held against one division of the text into markers and the rest. -/

namespace Relux

inductive Segment where
  | text (s : List Char)
  | marker (body : List Char)
  deriving DecidableEq

namespace Segment

def source : Segment → List Char
  | .text s => s
  | .marker body => '\x7b' :: '\x7b' :: body ++ ['\x7d', '\x7d']

def name? : Segment → Option String
  | .text _ => none
  | .marker body => some (String.ofList (trimChars body))

def value (bindings : BTreeMap String String) : Segment → List Char
  | .text s => s
  | .marker body => ((bindings.get? (String.ofList (trimChars body))).getD "").toList

def piece : Segment → TemplatePiece
  | .text s => .text s
  | .marker body => .marker (String.ofList (trimChars body))

end Segment

variable (isAlphanumeric : Char → Bool)

/-- The segments behind the next `skip` characters. -/
def segments : Nat → List Char → List Segment
  | _, [] => []
  | skip + 1, _ :: rest => segments skip rest
  | 0, c :: rest =>
    if c = '\x7b' ∧ rest.head? = some '\x7b' then
      match closeMarker rest.tail with
      | none => [.text (c :: rest)]
      | some body =>
        (if isVariableName isAlphanumeric (trimChars body) then .marker body
          else .text ((c :: rest).take (body.length + 4))) :: segments (body.length + 3) rest
    else .text [c] :: segments 0 rest

def scanVars : Nat → List String → List Char → List String
  | _, out, [] => out
  | skip + 1, out, _ :: rest => scanVars skip out rest
  | 0, out, c :: rest =>
    if c = '\x7b' ∧ rest.head? = some '\x7b' then
      match closeMarker rest.tail with
      | none => out
      | some body =>
        let name := trimChars body
        scanVars (body.length + 3)
          (if isVariableName isAlphanumeric name then out ++ [String.ofList name] else out) rest
    else scanVars 0 out rest

def scanInterpolate (bindings : BTreeMap String String) :
    Nat → List Char → List Char → Except String (List Char)
  | _, out, [] => .ok out
  | skip + 1, out, _ :: rest => scanInterpolate bindings skip out rest
  | 0, out, c :: rest =>
    if c = '\x7b' ∧ rest.head? = some '\x7b' then
      match closeMarker rest.tail with
      | none => .ok (out ++ c :: rest)
      | some body =>
        let name := trimChars body
        if ¬isVariableName isAlphanumeric name then
          scanInterpolate bindings (body.length + 3)
            (out ++ (c :: rest).take (body.length + 4)) rest
        else
          match bindings.get? (String.ofList name) with
          | none => .error (String.ofList name)
          | some value => scanInterpolate bindings (body.length + 3) (out ++ value.toList) rest
    else scanInterpolate bindings 0 (out ++ [c]) rest

variable {isAlphanumeric} {bindings : BTreeMap String String}

theorem closeMarker_some {l body : List Char} (h : closeMarker l = some body) :
    l = body ++ '\x7d' :: '\x7d' :: l.drop (body.length + 2) := by
  induction l generalizing body with
  | nil => cases h
  | cons c rest ih =>
    unfold closeMarker at h
    split at h
    next hclose =>
      cases h
      cases rest with
      | nil => cases hclose.2
      | cons d rest =>
        rw [hclose.1, Option.some.inj hclose.2]
        rfl
    · obtain ⟨tail, htail, rfl⟩ := Option.map_eq_some_iff.mp h
      have hrest := ih htail
      rw [List.cons_append, List.length_cons, Nat.add_right_comm, List.drop_succ_cons, ← hrest]

theorem segments_source (skip : Nat) (l : List Char) :
    (segments isAlphanumeric skip l).flatMap Segment.source = l.drop skip := by
  induction l generalizing skip with
  | nil => exact List.drop_nil.symm
  | cons c rest ih =>
    cases skip with
    | succ skip => exact ih skip
    | zero =>
      unfold segments
      split
      next hopen =>
        split
        · exact List.append_nil _
        next body hbody =>
          rw [List.flatMap_cons, ih]
          split
          · cases rest with
            | nil => cases hopen.2
            | cons d rest =>
              have hrest := closeMarker_some hbody
              rw [List.tail_cons] at hrest
              rw [hopen.1, Option.some.inj hopen.2, List.drop_zero, Segment.source,
                List.drop_succ_cons]
              conv_rhs => rw [hrest]
              simp
          · rw [Segment.source, List.drop_zero, ← List.drop_succ_cons, List.take_append_drop]
      · rw [List.flatMap_cons, ih]
        rfl

theorem scanVars_eq (skip : Nat) (out : List String) (l : List Char) :
    scanVars isAlphanumeric skip out l =
      out ++ (segments isAlphanumeric skip l).filterMap Segment.name? := by
  induction l generalizing skip out with
  | nil => exact (List.append_nil out).symm
  | cons c rest ih =>
    cases skip with
    | succ skip => exact ih skip out
    | zero =>
      unfold scanVars segments
      split
      · split
        · exact (List.append_nil out).symm
        · rw [ih]
          split
          · rw [List.filterMap_cons, List.append_assoc]
            rfl
          · rfl
      · exact ih 0 out

theorem scanInterpolate_eq (skip : Nat) (out l : List Char) :
    (∀ v, ((segments isAlphanumeric skip l).filterMap Segment.name?).find?
        (fun v => (bindings.get? v).isNone) = some v →
      scanInterpolate isAlphanumeric bindings skip out l = .error v) ∧
      (((segments isAlphanumeric skip l).filterMap Segment.name?).find?
          (fun v => (bindings.get? v).isNone) = none →
        scanInterpolate isAlphanumeric bindings skip out l =
          .ok (out ++ (segments isAlphanumeric skip l).flatMap (Segment.value bindings))) := by
  induction l generalizing skip out with
  | nil => exact ⟨fun v h => (by cases h), fun _ => congrArg Except.ok (List.append_nil out).symm⟩
  | cons c rest ih =>
    cases skip with
    | succ skip => exact ih skip out
    | zero =>
      unfold scanInterpolate segments
      split
      · split
        · exact ⟨fun v h => (by cases h), fun _ => by rw [List.flatMap_singleton]; rfl⟩
        next body hbody =>
          by_cases hname : isVariableName isAlphanumeric (trimChars body) = true
          · rw [if_pos hname, if_neg (not_not.mpr hname), List.filterMap_cons, List.flatMap_cons]
            simp only [Segment.name?, Segment.value]
            cases hvalue : bindings.get? (String.ofList (trimChars body)) with
            | none =>
              rw [List.find?_cons_of_pos (by rw [hvalue]; rfl)]
              exact ⟨fun v h => congrArg Except.error (Option.some.inj h), fun h => by cases h⟩
            | some value =>
              rw [List.find?_cons_of_neg (by rw [hvalue]; exact Bool.false_ne_true),
                ← List.append_assoc]
              exact ih (body.length + 3) (out ++ value.toList)
          · rw [if_neg hname, if_pos hname, List.filterMap_cons, List.flatMap_cons,
              ← List.append_assoc]
            exact ih (body.length + 3) (out ++ (c :: rest).take (body.length + 4))
      · rw [List.filterMap_cons, List.flatMap_cons, ← List.append_assoc]
        exact ih 0 (out ++ [c])

theorem templatePieces_eq (skip : Nat) (l : List Char) :
    templatePieces isAlphanumeric skip l = (segments isAlphanumeric skip l).map Segment.piece := by
  induction l generalizing skip with
  | nil => rfl
  | cons c rest ih =>
    cases skip with
    | succ skip => exact ih skip
    | zero =>
      unfold templatePieces segments
      split
      · cases closeMarker rest.tail with
        | none => rfl
        | some body =>
          dsimp only
          rw [List.map_cons, ih]
          split <;> rfl
      · rw [List.map_cons, ih]
        rfl

theorem render_eq (l : List Segment) (out : List Char) :
    (∀ v, (l.filterMap Segment.name?).find? (fun v => (bindings.get? v).isNone) = some v →
      (l.map Segment.piece).foldlM (TemplatePiece.render bindings) (String.ofList out) = .error v) ∧
      ((l.filterMap Segment.name?).find? (fun v => (bindings.get? v).isNone) = none →
        (l.map Segment.piece).foldlM (TemplatePiece.render bindings) (String.ofList out) =
          .ok (String.ofList (out ++ l.flatMap (Segment.value bindings)))) := by
  induction l generalizing out with
  | nil => exact ⟨fun v h => (by cases h), fun _ => by rw [List.flatMap_nil, List.append_nil]; rfl⟩
  | cons segment l ih =>
    rw [List.map_cons, List.foldlM_cons, List.filterMap_cons, List.flatMap_cons,
      ← List.append_assoc]
    cases segment with
    | text s =>
      have hrest := ih (out ++ s)
      rw [String.ofList_append] at hrest
      exact hrest
    | marker body =>
      simp only [Segment.name?, Segment.value, Segment.piece, TemplatePiece.render]
      cases hvalue : bindings.get? (String.ofList (trimChars body)) with
      | none =>
        rw [List.find?_cons_of_pos (by rw [hvalue]; rfl)]
        exact ⟨fun v h => congrArg Except.error (Option.some.inj h), fun h => by cases h⟩
      | some value =>
        rw [List.find?_cons_of_neg (by rw [hvalue]; exact Bool.false_ne_true)]
        have hrest := ih (out ++ value.toList)
        rw [String.ofList_append, String.ofList_toList] at hrest
        exact hrest

theorem workflow_scanners (isAlphanumeric : Char → Bool) (template : String)
    (bindings : BTreeMap String String) :
    extractVars isAlphanumeric template = scanVars isAlphanumeric 0 [] template.toList ∧
      interpolate isAlphanumeric template bindings =
        (scanInterpolate isAlphanumeric bindings 0 [] template.toList).map String.ofList := by
  have hnames : TemplatePiece.placeholder ∘ Segment.piece = Segment.name? := by
    funext segment
    cases segment <;> rfl
  obtain ⟨herror, hok⟩ := @scanInterpolate_eq isAlphanumeric bindings 0 [] template.toList
  obtain ⟨herror', hok'⟩ := @render_eq bindings (segments isAlphanumeric 0 template.toList) []
  rw [scanVars_eq, extractVars, interpolate, templatePieces_eq, List.filterMap_map, hnames]
  refine ⟨rfl, ?_⟩
  cases hfind : ((segments isAlphanumeric 0 template.toList).filterMap Segment.name?).find?
      (fun v => (bindings.get? v).isNone) with
  | none =>
    rw [hok hfind]
    exact hok' hfind
  | some v =>
    rw [herror v hfind]
    exact herror' v hfind

theorem template_scanners_agree (isAlphanumeric : Char → Bool) (template : String)
    (bindings : BTreeMap String String) :
    (segments isAlphanumeric 0 template.toList).flatMap Segment.source = template.toList ∧
      (segments isAlphanumeric 0 template.toList).filterMap Segment.name? =
        scanVars isAlphanumeric 0 [] template.toList ∧
      (∀ v, scanInterpolate isAlphanumeric bindings 0 [] template.toList = .error v ↔
        (scanVars isAlphanumeric 0 [] template.toList).find?
          (fun v => (bindings.get? v).isNone) = some v) ∧
      ∀ result, scanInterpolate isAlphanumeric bindings 0 [] template.toList = .ok result ↔
        (∀ v ∈ scanVars isAlphanumeric 0 [] template.toList, (bindings.get? v).isSome = true) ∧
          result = (segments isAlphanumeric 0 template.toList).flatMap
            (Segment.value bindings) := by
  have hvars := @scanVars_eq isAlphanumeric 0 [] template.toList
  obtain ⟨herror, hok⟩ := @scanInterpolate_eq isAlphanumeric bindings 0 [] template.toList
  rw [List.nil_append] at hvars hok
  rw [← hvars] at herror hok
  refine ⟨segments_source 0 template.toList, hvars.symm, ?_⟩
  cases hfind : (scanVars isAlphanumeric 0 [] template.toList).find?
      (fun v => (bindings.get? v).isNone) with
  | none =>
    rw [hok hfind]
    have hall : ∀ v ∈ scanVars isAlphanumeric 0 [] template.toList,
        (bindings.get? v).isSome = true := fun v hv =>
      Option.isSome_iff_ne_none.mpr fun hnone =>
        List.find?_eq_none.mp hfind v hv (Option.isNone_iff_eq_none.mpr hnone)
    exact ⟨fun v => ⟨fun h => (by cases h), fun h => (by cases h)⟩, fun result =>
      ⟨fun h => ⟨hall, (Except.ok.inj h).symm⟩, fun h => congrArg Except.ok h.2.symm⟩⟩
  | some v =>
    rw [herror v hfind]
    refine ⟨fun w => ⟨fun h => congrArg some (Except.error.inj h),
      fun h => congrArg Except.error (Option.some.inj h)⟩, fun result => ⟨fun h => (by cases h),
      fun h => ?_⟩⟩
    have hbound := h.1 v (List.mem_of_find?_eq_some hfind)
    have hfree : (bindings.get? v).isNone = true :=
      List.find?_some (p := fun v => (bindings.get? v).isNone) hfind
    rw [Option.isNone_iff_eq_none.mp hfree] at hbound
    cases hbound

end Relux
