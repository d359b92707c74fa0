import Relux.Sol.Analyzer
import Relux.Sol.Vm

/-! The code generator. Jumps are absolute, so what is emitted for a node depends on the
address it starts at; a program it panics on is refused. -/

namespace Relux

namespace Sol

structure Codegen where
  typeTables : List TypeTable
  locals : HashMap String (Nat × Ty)
  nextSlot : Nat
  functions : HashMap String Nat
  fnReturns : HashMap String Ty
  structLayouts : HashMap String (List (String × Ty))
  forLoopCounter : Nat
  pendingCalls : List (Nat × String)

abbrev Emit := Codegen → Nat → Option (List Inst × Codegen)

namespace Codegen

def ofTables (typeTables : List TypeTable) : Codegen where
  typeTables := typeTables
  locals := .empty
  nextSlot := 0
  functions := .empty
  fnReturns := .empty
  structLayouts := .empty
  forLoopCounter := 0
  pendingCalls := []

def emit (insts : List Inst) : Emit := fun cg _ => some (insts, cg)

def andThen (first second : Emit) : Emit := fun cg pc =>
  match first cg pc with
  | none => none
  | some (insts, cg) =>
    match second cg (pc + insts.length) with
    | none => none
    | some (insts', cg) => some (insts ++ insts', cg)

def getOrCreateLocal (cg : Codegen) (name : String) (ty : Ty) : Codegen :=
  match cg.locals.get? name with
  | some _ => cg
  | none =>
    { cg with locals := cg.locals.insert name (cg.nextSlot, ty), nextSlot := cg.nextSlot + 1 }

def variableKind (name : String) (table : TypeTable) : Option Ty :=
  match table.get? name with
  | some (.variable kind) => some kind
  | _ => none

/-- A name that has no slot gets one, with the type it has in the last table that has it. -/
def findLocal (cg : Codegen) (name : String) : Codegen :=
  cg.getOrCreateLocal name
    ((cg.typeTables.filterMap (variableKind name)).getLast?.getD .integer)

def slotOf (cg : Codegen) (name : String) : Word :=
  BitVec.ofNat 64 (((cg.locals.get? name).map Prod.fst).getD cg.nextSlot)

def load (name : String) : Emit := fun cg _ =>
  some ([.loadLocal ((cg.findLocal name).slotOf name)], cg.findLocal name)

def store (name : String) : Emit := fun cg _ =>
  some ([.storeLocal ((cg.findLocal name).slotOf name)], cg.findLocal name)

def create (name : String) (ty : Ty) : Emit := fun cg _ =>
  some ([], cg.getOrCreateLocal name ty)

def builtinReturn (name : String) : Option Ty :=
  if name = "remote_call" then some .string
  else if name = "remote_call_stream" then some .string
  else if name = "error_kind" ∨ name = "error_cause" then some .string
  else if name = "error_retry_hint" then some .integer
  else if name = "last_confidence" then some .float
  else if name = "list_len" ∨ name = "map_len" then some .integer
  else if name = "list_get" ∨ name = "list_join" ∨ name = "map_get" then some .string
  else if name = "list_contains" ∨ name = "map_has" then some .bool
  else if name = "list_push" ∨ name = "list_split" ∨ name = "map_keys" ∨ name = "list_get_list" then
    some .list
  else if name = "map_set" ∨ name = "map_del" ∨ name = "map_get_map" then some .map
  else none

def inferType (cg : Codegen) : Expr → Ty
  | .integer _ => .integer
  | .float _ => .float
  | .char _ => .char
  | .string _ => .string
  | .bool _ => .bool
  | .var name =>
    match cg.locals.get? name with
    | some (_, ty) => ty
    | none => (cg.typeTables.findSome? (variableKind name)).getD .integer
  | .member lhs name =>
    match inferType cg lhs with
    | .ident struct =>
      match ((cg.structLayouts.get? struct).getD []).find? (fun f => f.1 == name) with
      | some (_, ty) => ty
      | none => .integer
    | _ => .integer
  | .binary lhs _ rhs =>
    match inferType cg lhs, inferType cg rhs with
    | .float, _ => .float
    | _, .float => .float
    | lt, _ => lt
  | .unary _ child => inferType cg child
  | .index lhs _ =>
    match inferType cg lhs with
    | .array _ inner => inner
    | _ => .integer
  | .call name _ =>
    match builtinReturn name with
    | some ty => ty
    | none => (cg.fnReturns.get? name).getD .integer
  | _ => .integer

def BinOp.isTest : BinOp → Bool
  | .eqEq | .bangEq | .moreThan | .lessThan | .moreEq | .lessEq | .pipePipe | .ampAmp => true
  | _ => false

def displayType (cg : Codegen) : Expr → Ty
  | .binary lhs op rhs =>
    if BinOp.isTest op then .integer else inferType cg (.binary lhs op rhs)
  | .unary .bang _ => .integer
  | e => inferType cg e

def floatOp : BinOp → List Inst
  | .plus => [.floatAdd]
  | .dash => [.floatSub]
  | .star => [.floatMul]
  | .slash => [.floatDiv]
  | .eqEq => [.floatEq]
  | .bangEq => [.floatNeq]
  | .moreThan => [.floatGt]
  | .lessThan => [.floatLt]
  | .moreEq => [.floatGte]
  | .lessEq => [.floatLte]
  | _ => []

def charOp : BinOp → List Inst
  | .eqEq => [.charEq]
  | .bangEq => [.charNeq]
  | .moreThan => [.charGt]
  | .lessThan => [.charLt]
  | .moreEq => [.charGte]
  | .lessEq => [.charLte]
  | _ => []

def stringOp : BinOp → List Inst
  | .plus => [.concatStr]
  | .eqEq => [.eqStr]
  | .bangEq => [.eqStr, .logNot]
  | _ => []

def integerOp : BinOp → List Inst
  | .plus => [.intAdd]
  | .dash => [.intSub]
  | .star => [.intMul]
  | .slash => [.intDiv]
  | .eqEq => [.intEq]
  | .bangEq => [.intNeq]
  | .moreThan => [.intGt]
  | .lessThan => [.intLt]
  | .moreEq => [.intGte]
  | .lessEq => [.intLte]
  | .pipePipe => [.logOr]
  | .ampAmp => [.logAnd]
  | .caret => [.bitXor]
  | .ampersand => [.bitAnd]
  | .pipe => [.bitOr]
  | .lShift => [.bitLShift]
  | .rShift => [.bitRShift]
  | .eq => []

/-- `emit_binary_op`: nothing is emitted for an operator the type has no instruction for. -/
def binaryOp (op : BinOp) : Ty → List Inst
  | .float => floatOp op
  | .char => charOp op
  | .string => stringOp op
  | _ => integerOp op

def unaryOp (op : UnOp) (childType : Ty) : List Inst :=
  match op, childType with
  | .bang, _ => [.logNot]
  | .tilde, _ => [.bitNeg]
  | .dash, .float => [.pushConst (.float 0xBFF0000000000000), .floatMul]
  | .dash, _ => [.pushConst (.integer (-1)), .intMul]

def printOp : Ty → Inst
  | .float => .printFloat
  | .char => .printChar
  | .string => .printString
  | _ => .printInt

def collectionOps : List (String × Inst) :=
  [("list_len", .listLen), ("list_get", .listGet), ("list_get_list", .listGetList),
    ("list_push", .listPush), ("list_contains", .listContains), ("list_join", .listJoin),
    ("list_split", .listSplit), ("map_get", .mapGet), ("map_get_map", .mapGetMap),
    ("map_set", .mapSet), ("map_has", .mapHas), ("map_keys", .mapKeys), ("map_len", .mapLen),
    ("map_del", .mapDel)]

def collectionOp (name : String) : Option Inst :=
  (collectionOps.find? (fun e => e.1 == name)).map Prod.snd

def fieldIndex (cg : Codegen) (obj : Expr) (member : String) : Nat :=
  match inferType cg obj with
  | .ident struct => (((cg.structLayouts.get? struct).getD []).findIdx? (fun f => f.1 == member)).getD 0
  | _ => 0

def call (name : String) (count : Nat) : Emit := fun cg pc =>
  match cg.functions.get? name with
  | some target => some ([.call target count], cg)
  | none => some ([.call 0 count], { cg with pendingCalls := cg.pendingCalls ++ [(pc, name)] })

def callCode (name : String) (args : List Expr) (all first : Emit) : Emit :=
  if name = "print" ∧ args ≠ [] then
    andThen first (fun cg _ => some ([printOp (displayType cg (args.headD (.integer 0)))], cg))
  else if name = "remote_call" then andThen all (emit [.remoteCall])
  else if name = "remote_call_stream" then andThen all (emit [.remoteCallStream])
  else if name = "error_kind" then emit [.loadErrorKind]
  else if name = "error_cause" then emit [.loadErrorCause]
  else if name = "error_retry_hint" then emit [.loadErrorRetryHint]
  else if name = "last_confidence" then emit [.loadLastConfidence]
  else match collectionOp name with
    | some op => andThen all (emit [op])
    | none => andThen all (call name args.length)

mutual

def compile : Expr → Emit
  | .integer v => emit [.pushConst (.integer v)]
  | .float bits => emit [.pushConst (.float bits)]
  | .char c => emit [.pushConst (.char c)]
  | .string s => emit [.pushConst (.string s)]
  | .bool b => emit [.pushConst (.bool b)]
  | .var name => load name
  | .binary lhs op rhs =>
    if op = .eq then compileAssign lhs (compile rhs)
    else
      andThen (compile lhs) (andThen (compile rhs)
        (fun cg _ => some (binaryOp op (inferType cg (.binary lhs op rhs)), cg)))
  | .unary op child =>
    andThen (compile child) (fun cg _ => some (unaryOp op (inferType cg child), cg))
  | .call name args => callCode name args (compileArgs args) (compileFirst args)
  | .member obj member => fun cg pc =>
    andThen (compile obj) (emit [.getField (fieldIndex cg obj member)]) cg pc
  | .enumVar _ var => emit [.pushConst (.integer ((var.toList.headD 'A').toNat % 10))]
  | .index lhs idx => andThen (compile lhs) (andThen (compile idx) (emit [.getElem]))
  | .list elements => andThen (compileArgs elements) (emit [.pushList elements.length])
  | .map pairs => andThen (compilePairs pairs) (emit [.pushMap pairs.length])
  | .structInit name fields => fun cg pc =>
    match cg.structLayouts.get? name with
    | some layout =>
      andThen (layout.foldr (fun f rest => andThen (compileField fields f.1) rest) (emit []))
        (emit [.newStruct layout.length]) cg pc
    | none => some ([.newStruct 0], cg)

def compileAssign : Expr → Emit → Emit
  | .var name, rhs => andThen rhs (andThen (emit [.dup]) (store name))
  | .index arr idx, rhs =>
    andThen (compile arr) (andThen (compile idx) (andThen rhs (emit [.setElem])))
  | .member obj member, rhs =>
    andThen rhs (andThen (emit [.dup]) (fun cg pc =>
      andThen (compile obj) (emit [.setField (fieldIndex cg obj member)]) cg pc))
  | _, _ => fun _ _ => none

def compileArgs : List Expr → Emit
  | [] => emit []
  | e :: es => andThen (compile e) (compileArgs es)

def compileFirst : List Expr → Emit
  | [] => emit []
  | e :: _ => compile e

def compilePairs : List (String × Expr) → Emit
  | [] => emit []
  | (key, e) :: pairs =>
    andThen (emit [.pushConst (.string key)]) (andThen (compile e) (compilePairs pairs))

def compileField : List (String × Expr) → String → Emit
  | [], _ => emit [.pushConst .undefined]
  | (name, e) :: fields, f => if name = f then compile e else compileField fields f

end

def isExpressionNode : Stmt → Bool
  | .expr _ | .return _ => true
  | _ => false

/-- The slots taken since `saved` are free again. -/
def leaveScope (saved : Codegen) (cg : Codegen) : Codegen :=
  { cg with
    locals := cg.locals.retain (fun _ slot => decide (slot.1 < saved.nextSlot))
    nextSlot := saved.nextSlot }

/-- The instructions for the length and the items of what a `for` goes over, and their type. -/
def iteration : Ty → Inst × Inst × Ty
  | .array _ inner => (.arrayLen, .getElem, inner)
  | .list => (.listLen, .listGet, .string)
  | _ => (.arrayLen, .getElem, .integer)

def forHead (elem arr idx len : String) (ops : Inst × Inst × Ty) (array : Emit) : Emit :=
  andThen (create elem ops.2.2) <|
  andThen array <|
  andThen (create arr .integer) <| andThen (store arr) <|
  andThen (load arr) <| andThen (emit [ops.1]) <|
  andThen (create len .integer) <| andThen (store len) <|
  andThen (emit [.pushConst (.integer 0)]) <|
  andThen (create idx .integer) (store idx)

def forTest (idx len : String) : Emit := andThen (load idx) <| andThen (load len) (emit [.intLt])

def forItem (elem arr idx : String) (ops : Inst × Inst × Ty) : Emit :=
  andThen (load arr) <| andThen (load idx) <| andThen (emit [ops.2.1]) (store elem)

def forNext (idx : String) : Emit :=
  andThen (load idx) <| andThen (emit [.pushConst (.integer 1), .intAdd]) (store idx)

def clause (kind : String) (pc : Nat) (body : List Inst) : List Inst :=
  if kind = "any" then body
  else .pushConst (.string kind) :: .loadErrorKind :: .eqStr ::
    .jumpFalse (pc + 4 + body.length + 1) :: body

def clauseStart (kind : String) (pc : Nat) : Nat := if kind = "any" then pc else pc + 4

def clausesCode (clauses : List (List Inst)) (endPc : Nat) : List Inst :=
  clauses.flatMap (fun c => c ++ [.jump endPc])

mutual

def compileStmt : Stmt → Emit
  | .expr e => compile e
  | .declVar name kind (some e) => andThen (compile e) (andThen (create name kind) (store name))
  | .declVar name kind none => create name kind
  | .block stmts => fun cg pc =>
    (compileStmts stmts cg pc).map (fun r => (r.1, leaveScope cg r.2))
  | .importAs _ => emit []
  | .ifThen condition body => fun cg pc => do
    let (c, cg₁) ← compile condition cg pc
    let bodyPc := pc + c.length + 1
    let (b, cg₂) ← compileStmts body cg₁ bodyPc
    some (c ++ .jumpFalse (bodyPc + b.length) :: b, leaveScope cg₁ cg₂)
  | .ifElse condition body alt => fun cg pc => do
    let (c, cg₁) ← compile condition cg pc
    let bodyPc := pc + c.length + 1
    let (b, cg₂) ← compileStmts body cg₁ bodyPc
    let elseStart := bodyPc + b.length + 1
    let (a, cg₃) ← compileStmt alt (leaveScope cg₁ cg₂) elseStart
    some (c ++ .jumpFalse elseStart :: b ++ .jump (elseStart + a.length) :: a, cg₃)
  | .while condition body => fun cg pc => do
    let (c, cg₁) ← compile condition cg pc
    let bodyPc := pc + c.length + 1
    let (b, cg₂) ← compileStmts body cg₁ bodyPc
    some (c ++ .jumpFalse (bodyPc + b.length + 1) :: b ++ [.jump pc], leaveScope cg₁ cg₂)
  | .for elemName array body => fun cg pc => do
    let ops := iteration (inferType cg array)
    let counter := cg.forLoopCounter
    let arr := s!"__for_arr_{counter}"
    let idx := s!"__for_idx_{counter}"
    let len := s!"__for_len_{counter}"
    let (h, cg₁) ← forHead elemName arr idx len ops (compile array)
      { cg with forLoopCounter := counter + 1 } pc
    let loopStart := pc + h.length
    let (t, cg₂) ← forTest idx len cg₁ loopStart
    let itemPc := loopStart + t.length + 1
    let (i, cg₃) ← forItem elemName arr idx ops cg₂ itemPc
    let bodyPc := itemPc + i.length
    let (b, cg₄) ← compileStmts body cg₃ bodyPc
    let (n, cg₅) ← forNext idx (leaveScope cg₃ cg₄) (bodyPc + b.length)
    let loopEnd := bodyPc + b.length + n.length + 1
    some (h ++ t ++ .jumpFalse loopEnd :: i ++ b ++ n ++ [.jump loopStart], leaveScope cg cg₅)
  | .try body catches => fun cg pc => do
    let (b, cg₁) ← compileStmts body cg (pc + 1)
    let dispatchPc := pc + 1 + b.length + 2
    let (clauses, cg₂) ← compileCatches catches (leaveScope cg cg₁) dispatchPc
    let endPc := dispatchPc + (clausesCode clauses 0).length + 1
    some (.tryEnter dispatchPc :: b ++ .tryExit :: .jump endPc :: clausesCode clauses endPc ++
      [.rethrow], cg₂)
  | .rethrow => emit [.rethrow]
  | .return (some e) => andThen (compile e) (emit [.retVal])
  | .return none => emit [.ret]

def compileStmts : List Stmt → Emit
  | [] => emit []
  | s :: stmts =>
    andThen (compileStmt s)
      (andThen (emit (if isExpressionNode s then [.pop] else [])) (compileStmts stmts))

def compileCatches : List (String × List Stmt) → Codegen → Nat →
    Option (List (List Inst) × Codegen)
  | [], cg, _ => some ([], cg)
  | (kind, body) :: catches, cg, pc => do
    let (b, cg₁) ← compileStmts body cg (clauseStart kind pc)
    let c := clause kind pc b
    let (clauses, cg₂) ← compileCatches catches (leaveScope cg cg₁) (pc + c.length + 1)
    some (c :: clauses, cg₂)

end

def enterParams (cg : Codegen) (params : List (String × Ty)) : Codegen :=
  params.foldl (fun cg p => { cg with
    locals := cg.locals.insert p.1 (cg.nextSlot, p.2)
    nextSlot := cg.nextSlot + 1 }) { cg with locals := .empty, nextSlot := 0 }

def compileDecl : Decl → Emit
  | .func name params ret body => fun cg pc => do
    let cg₁ := { cg with
      functions := cg.functions.insert name (pc + 1)
      fnReturns := cg.fnReturns.insert name ret }
    let (b, cg₂) ← compileStmt body (enterParams cg₁ params) (pc + 1)
    some (.jump (pc + 1 + b.length + 1) :: b ++ [.ret], cg₂)
  | .var name kind value => compileStmt (.declVar name kind value)
  | .struct _ _ => emit []
  | .enum _ _ => emit []
  | .importAs _ => emit []

def compileDecls : Program → Emit
  | [] => emit []
  | d :: ds => andThen (compileDecl d) (compileDecls ds)

def layoutOf (fields : HashMap String Ty) : List (String × Ty) :=
  fields.entries.mergeSort (fun a b => decide (a.1 ≤ b.1))

def enterLayouts (cg : Codegen) (program : Program) : Codegen :=
  program.foldl (fun cg d =>
    match d with
    | .struct name fields =>
      { cg with structLayouts := cg.structLayouts.insert name (layoutOf fields) }
    | _ => cg) cg

def resolve (functions : HashMap String Nat) (insts : List Inst) (pending : Nat × String) :
    List Inst :=
  match functions.get? pending.2, insts[pending.1]? with
  | some addr, some (.call _ count) => insts.set pending.1 (.call addr count)
  | _, _ => insts

def genBcode (typeTables : List TypeTable) (program : Program) : Option (List Inst) := do
  let (insts, cg) ← compileDecls program (enterLayouts (ofTables typeTables) program) 0
  let linked := cg.pendingCalls.foldl (resolve cg.functions) insts
  match cg.functions.get? "start" with
  | some startAddr => some (linked ++ [.call startAddr 0])
  | none => some linked

end Codegen

/-- `compile_stripped_source`, from the parsed program on. -/
def compileProgram (program : Program) : Option (List Inst) :=
  (Analyzer.run program).bind (fun analyzer => Codegen.genBcode analyzer.ttArena program)

end Sol

end Relux
