import Relux.Sol.Syntax

/-! The analyzer. A program it panics on is refused: its methods have no result there. -/

namespace Relux

namespace Sol

inductive Symbol where
  | variable (kind : Ty)
  | enum (variants : HashMap String Int)
  | struct (fields : HashMap String Ty)

abbrev TypeTable := HashMap String Symbol

structure Analyzer where
  ttArena : List TypeTable
  tts : List Nat
  canReturn : Bool
  returnType : Option Ty

namespace Analyzer

def new : Analyzer := ⟨[], [], false, none⟩

def newTable (a : Analyzer) : Analyzer :=
  { a with ttArena := a.ttArena ++ [.empty], tts := a.ttArena.length :: a.tts }

def popTable (a : Analyzer) : Analyzer := { a with tts := a.tts.tail }

def addEntry (a : Analyzer) (name : String) (symbol : Symbol) : Option Analyzer :=
  match a.tts with
  | [] => none
  | id :: _ =>
    match a.ttArena[id]? with
    | none => none
    | some table =>
      if (table.get? name).isSome then none
      else some { a with ttArena := a.ttArena.set id (table.insert name symbol) }

def getEntry (a : Analyzer) (name : String) : Option Symbol :=
  a.tts.findSome? (fun id => (a.ttArena[id]?).bind (·.get? name))

def checkBinary (op : BinOp) (lhs rhs : Ty) : Option Ty :=
  match op with
  | .plus | .dash | .star | .slash =>
    if ¬ typeEq lhs rhs then none
    else match lhs with
      | .integer => some .integer
      | .float => some .float
      | .string => if op = .plus then some .string else none
      | _ => none
  | .eqEq | .bangEq | .moreThan | .lessThan | .moreEq | .lessEq =>
    if typeEq lhs rhs then some .bool else none
  | .ampAmp | .pipePipe =>
    match lhs, rhs with
    | .bool, .bool => some .bool
    | _, _ => none
  | .ampersand | .pipe | .caret | .lShift | .rShift =>
    match lhs, rhs with
    | .integer, .integer => some .integer
    | _, _ => none
  | .eq => if typeEq lhs rhs then some lhs else none

def checkUnary (op : UnOp) (child : Ty) : Option Ty :=
  match op, child with
  | .dash, .integer => some .integer
  | .dash, .float => some .float
  | .bang, .integer => some .integer
  | .bang, .float => some .float
  | .bang, .bool => some .bool
  | .tilde, .integer => some .integer
  | _, _ => none

/-- The list and map built-ins: how many arguments each takes, and what it returns. The types
of the arguments are not checked. -/
def collectionBuiltin (name : String) : Option (Nat × Ty) :=
  if name = "list_len" then some (1, .integer)
  else if name = "list_get" then some (2, .string)
  else if name = "list_get_list" then some (2, .list)
  else if name = "list_push" then some (2, .list)
  else if name = "list_contains" then some (2, .bool)
  else if name = "list_join" then some (2, .string)
  else if name = "list_split" then some (2, .list)
  else if name = "map_get" then some (2, .string)
  else if name = "map_get_map" then some (2, .map)
  else if name = "map_set" then some (3, .map)
  else if name = "map_has" then some (2, .bool)
  else if name = "map_keys" then some (1, .list)
  else if name = "map_len" then some (1, .integer)
  else if name = "map_del" then some (2, .map)
  else none

def checkCall (a : Analyzer) (name : String) (args : List Ty) : Option Ty :=
  if name = "print" then some .void
  else if name = "remote_call" ∨ name = "remote_call_stream" then
    if args.length = 3 ∧ args.all (fun t => typeEq t .string) then some .string else none
  else if name = "error_kind" ∨ name = "error_cause" then
    if args.isEmpty then some .string else none
  else if name = "error_retry_hint" then if args.isEmpty then some .integer else none
  else if name = "last_confidence" then if args.isEmpty then some .float else none
  else match collectionBuiltin name with
    | some (arity, ret) => if args.length = arity then some ret else none
    | none =>
      match a.getEntry name with
      | some (.variable (.function params ret)) =>
        if args.length = params.length ∧ (args.zip params).all (fun p => typeEq p.1 p.2) then
          some ret
        else none
      | _ => none

mutual

def check (a : Analyzer) : Expr → Option Ty
  | .integer _ => some .integer
  | .float _ => some .float
  | .string _ => some .string
  | .char _ => some .char
  | .bool _ => some .bool
  | .var name =>
    match a.getEntry name with
    | some (.variable kind) => some kind
    | _ => none
  | .binary lhs op rhs =>
    match check a lhs, check a rhs with
    | some l, some r => checkBinary op l r
    | _, _ => none
  | .unary op child => (check a child).bind (checkUnary op)
  | .call name args => (checkArgs a args).bind (checkCall a name)
  | .member lhs name =>
    match check a lhs with
    | some (.ident struct) =>
      match a.getEntry struct with
      | some (.struct fields) => fields.get? name
      | _ => none
    | _ => none
  | .enumVar name var =>
    match a.getEntry name with
    | some (.enum variants) => if (variants.get? var).isSome then some (.ident name) else none
    | _ => none
  | .index lhs index =>
    match check a lhs, check a index with
    | some (.array _ inner), some .integer => some inner
    | some (.array _ inner), some .float => some inner
    | _, _ => none
  | .list elements => (checkArgs a elements).map (fun _ => .list)
  | .map pairs => (checkValues a pairs).map (fun _ => .map)
  | .structInit _ _ => none

def checkArgs (a : Analyzer) : List Expr → Option (List Ty)
  | [] => some []
  | e :: es =>
    match check a e, checkArgs a es with
    | some t, some ts => some (t :: ts)
    | _, _ => none

def checkValues (a : Analyzer) : List (String × Expr) → Option (List Ty)
  | [] => some []
  | (_, e) :: es =>
    match check a e, checkValues a es with
    | some t, some ts => some (t :: ts)
    | _, _ => none

end

def checkCondition (a : Analyzer) (condition : Expr) : Bool :=
  match check a condition with
  | some .bool => true
  | _ => false

mutual

def checkStmt (a : Analyzer) : Stmt → Option Analyzer
  | .expr e => (check a e).map (fun _ => a)
  | .declVar name kind _ => a.addEntry name (.variable kind)
  | .block stmts => checkBlock a stmts
  | .importAs none => some a
  | .importAs (some name) => a.addEntry name (.variable .void)
  | .ifThen condition body => if checkCondition a condition then checkBlock a body else none
  | .ifElse condition body alt =>
    if checkCondition a condition then (checkBlock a body).bind (fun a => checkStmt a alt)
    else none
  | .while condition body => if checkCondition a condition then checkBlock a body else none
  | .for elemName array body =>
    match check a array with
    | some (.array _ inner) =>
      (a.addEntry elemName (.variable inner)).bind (fun a => checkBlock a body)
    | some .list => (a.addEntry elemName (.variable .string)).bind (fun a => checkBlock a body)
    | _ => none
  | .try body catches => (checkBlock a body).bind (fun a => checkCatches a catches)
  | .rethrow => some a
  | .return val =>
    if ¬ a.canReturn then none
    else match (match val with
        | some e => check a e
        | none => some .void), a.returnType with
      | none, _ => none
      | some _, none => some a
      | some actual, some expected => if typeEq actual expected then some a else none

def checkStmts (a : Analyzer) : List Stmt → Option Analyzer
  | [] => some a
  | s :: stmts => (checkStmt a s).bind (fun a => checkStmts a stmts)

def checkBlock (a : Analyzer) : List Stmt → Option Analyzer
  | [] => some a
  | s :: stmts =>
    (checkStmt a.newTable s).bind (fun a => (checkStmts a stmts).map popTable)

def checkCatches (a : Analyzer) : List (String × List Stmt) → Option Analyzer
  | [] => some a
  | (_, body) :: catches => (checkBlock a body).bind (fun a => checkCatches a catches)

end

mutual

/-- Every static path ends in a `return` or a `rethrow`; loops do not count. -/
def alwaysReturns : Stmt → Bool
  | .block stmts => anyReturns stmts
  | .return _ => true
  | .rethrow => true
  | .ifElse _ body alt => anyReturns body && alwaysReturns alt
  | .try body catches => anyReturns body && allReturn catches
  | _ => false

def anyReturns : List Stmt → Bool
  | [] => false
  | s :: stmts => alwaysReturns s || anyReturns stmts

def allReturn : List (String × List Stmt) → Bool
  | [] => true
  | (_, body) :: catches => anyReturns body && allReturn catches

end

def addParams (a : Analyzer) (params : List (String × Ty)) : Option Analyzer :=
  params.foldlM (fun a p => a.addEntry p.1 (.variable p.2)) a

def checkDecl (a : Analyzer) : Decl → Option Analyzer
  | .func _ params ret body => do
    let inner ← addParams a.newTable params
    let inner ← checkStmt { inner with canReturn := true, returnType := some ret } body
    if ¬ ret.isVoid ∧ ¬ alwaysReturns body then none
    else some (popTable { inner with canReturn := a.canReturn, returnType := a.returnType })
  | .var name kind _ => a.addEntry name (.variable kind)
  | .struct name fields => a.addEntry name (.struct fields)
  | .enum name variants => a.addEntry name (.enum variants)
  | .importAs none => some a
  | .importAs (some name) => a.addEntry name (.variable .void)

def run (program : Program) : Option Analyzer := do
  let a ← program.foldlM (fun a decl => match decl with
    | .func name params ret _ =>
      addEntry a name (.variable (.function (params.map Prod.snd) ret))
    | _ => some a) new.newTable
  program.foldlM checkDecl a

end Analyzer

end Sol

end Relux
