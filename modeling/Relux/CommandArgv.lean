import Relux.Plugins

/-! The argument vector of one invocation of a command tool: the fixed arguments of the recipe and
behind them the values the caller supplies for the declared inputs. -/

namespace Relux

def maxCommandInputValueChars : Nat := 4096

/-- The element of a declared input, if there is a value for it. -/
def inputValue (input : Json) (declared : CommandInputArg) : Except String (Option String) :=
  match input.get? declared.name with
  | none | some .null =>
    if declared.required then .error ("missing required input arg '" ++ declared.name ++ "'")
    else .ok none
  | some (.str s) =>
    if s.toList.length > maxCommandInputValueChars then
      .error ("input arg '" ++ declared.name ++ "' is too long (max 4096 chars)")
    else if s.toList.any isControl then
      .error ("input arg '" ++ declared.name ++ "' must not contain control characters")
    else .ok (some s)
  | some _ => .error ("input arg '" ++ declared.name ++ "' must be a string")

def appendInputs (input : Json) : List CommandInputArg → List String → Except String (List String)
  | [], argv => .ok argv
  | declared :: rest, argv =>
    match inputValue input declared with
    | .error e => .error e
    | .ok value => appendInputs input rest (argv ++ value.toList)

def buildCommandArgv (config : CommandToolConfig) (input : Json) : Except String (List String) :=
  match validateStdioCommand config.program config.args with
  | .error e => .error ("invalid command: " ++ e)
  | .ok _ => appendInputs input config.inputArgs config.args

/-- The string the caller supplies under the name of a declared input. -/
def supplied (input : Json) (declared : CommandInputArg) : Option String :=
  (input.get? declared.name).bind Json.asStr

variable {input input' : Json} {declared : CommandInputArg} {inputs : List CommandInputArg}
  {argv before : List String}

theorem inputValue_ok {value : Option String} (h : inputValue input declared = .ok value) :
    value = supplied input declared := by
  unfold inputValue at h
  unfold supplied
  cases hget : input.get? declared.name with
  | none =>
    rw [hget] at h
    dsimp only at h
    split at h
    · cases h
    · cases h
      rfl
  | some json =>
    rw [hget] at h
    cases json with
    | null =>
      dsimp only at h
      split at h
      · cases h
      · cases h
        rfl
    | str s =>
      dsimp only at h
      split at h
      · cases h
      · split at h
        · cases h
        · cases h
          rfl
    | bool b | num literal | arr items | obj fields => cases h

theorem appendInputs_ok (h : appendInputs input inputs before = .ok argv) :
    argv = before ++ inputs.filterMap (supplied input) := by
  induction inputs generalizing before with
  | nil =>
    cases h
    exact (List.append_nil _).symm
  | cons declared rest ih =>
    unfold appendInputs at h
    cases hvalue : inputValue input declared with
    | error e =>
      rw [hvalue] at h
      cases h
    | ok value =>
      rw [hvalue] at h
      have hrest := ih h
      have hsupplied := inputValue_ok hvalue
      rw [hrest, hsupplied, List.filterMap_cons, List.append_assoc]
      cases supplied input declared with
      | none => rfl
      | some s => rfl

theorem appendInputs_congr
    (h : ∀ declared ∈ inputs, input'.get? declared.name = input.get? declared.name) :
    appendInputs input' inputs before = appendInputs input inputs before := by
  induction inputs generalizing before with
  | nil => rfl
  | cons declared rest ih =>
    have hvalue : inputValue input' declared = inputValue input declared := by
      rw [inputValue, inputValue, h declared List.mem_cons_self]
    have hrest : ∀ before', appendInputs input' rest before' = appendInputs input rest before' :=
      fun before' => ih (fun d hd => h d (List.mem_cons_of_mem declared hd))
    simp only [appendInputs, hvalue, hrest]

theorem getElem?_supplied {args : List String} {i : Nat} {value : String}
    (hdeclared : inputs[i]? = some declared) (hvalue : supplied input declared = some value) :
    (args ++ inputs.filterMap (supplied input))[args.length +
      ((inputs.take i).filterMap (supplied input)).length]? = some value := by
  have hi := (List.getElem?_eq_some_iff.mp hdeclared).1
  have hsplit : inputs = inputs.take i ++ declared :: inputs.drop (i + 1) := by
    have hdrop := List.drop_eq_getElem_cons hi
    rw [(List.getElem?_eq_some_iff.mp hdeclared).2] at hdrop
    rw [← hdrop, List.take_append_drop]
  rw [List.getElem?_append_right (Nat.le_add_right _ _), Nat.add_sub_cancel_left]
  have hall : inputs.filterMap (supplied input) =
      (inputs.take i).filterMap (supplied input) ++
        value :: (inputs.drop (i + 1)).filterMap (supplied input) := by
    conv_lhs => rw [hsplit]
    rw [List.filterMap_append, List.filterMap_cons, hvalue]
  rw [hall, List.getElem?_append_right (Nat.le_refl _), Nat.sub_self]
  rfl

theorem command_argv_supplied (config : CommandToolConfig) (input : Json) :
    (∀ argv, buildCommandArgv config input = .ok argv →
      argv = config.args ++ config.inputArgs.filterMap (supplied input) ∧
        ∀ (i : Nat) (declared : CommandInputArg) (value : String),
          config.inputArgs[i]? = some declared → supplied input declared = some value →
          argv[config.args.length +
            ((config.inputArgs.take i).filterMap (supplied input)).length]? = some value) ∧
      ∀ input' : Json, (∀ declared ∈ config.inputArgs,
          input'.get? declared.name = input.get? declared.name) →
        buildCommandArgv config input' = buildCommandArgv config input := by
  refine ⟨fun argv h => ?_, fun input' hsame => ?_⟩
  · unfold buildCommandArgv at h
    split at h
    · cases h
    · have hargv := appendInputs_ok h
      refine ⟨hargv, fun i declared value hdeclared hvalue => ?_⟩
      rw [hargv]
      exact getElem?_supplied hdeclared hvalue
  · simp only [buildCommandArgv, appendInputs_congr hsame]

def lintConfig : CommandToolConfig :=
  ⟨"linter", "lint.run", "lint", ["check"], none, [⟨"file", "", false⟩, ⟨"mode", "", false⟩],
    30000, true⟩

theorem command_argv_supplied_lint :
    (["check", "fast"] : List String)[(["check"] : List String).length +
      ((lintConfig.inputArgs.take 1).filterMap
        (supplied (.obj [("mode", .str "fast")]))).length]? = some "fast" :=
  ((command_argv_supplied lintConfig (.obj [("mode", .str "fast")])).1 ["check", "fast"]
    (by rfl)).2 1 ⟨"mode", "", false⟩ "fast" rfl rfl

/-- Without a file the mode stands in its place, and it may be a flag. -/
theorem not_command_argv_closed :
    validateCommandToolConfig lintConfig = .ok () ∧
      buildCommandArgv lintConfig (.obj [("file", .str "a"), ("mode", .str "b")]) =
        .ok ["check", "a", "b"] ∧
      buildCommandArgv lintConfig (.obj [("mode", .str "--yolo")]) = .ok ["check", "--yolo"] := by
  decide +kernel

end Relux
