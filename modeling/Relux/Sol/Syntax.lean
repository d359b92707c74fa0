import Relux.HashMap

/-! The programs of the flow language, in the shape the parser builds them: declarations at
the top level, statements in function bodies, and expressions. -/

namespace Relux

namespace Sol

abbrev Word := BitVec 64

inductive Ty where
  | void
  | integer
  | float
  | string
  | char
  | bool
  | tuple (items : List Ty)
  | array (size : Option Int) (inner : Ty)
  | list
  | map
  | ident (name : String)
  | function (params : List Ty) (ret : Ty)

def Ty.isVoid : Ty → Bool
  | .void => true
  | _ => false

/-- Tuples and parameter lists are compared as far as the shorter one goes, and of the
results of two functions only whether there is one. -/
def typeEq : Ty → Ty → Bool
  | .ident a, .ident b => a == b
  | .array m a, .array n b => typeEq a b && m == n
  | .tuple as, .tuple bs => go as bs
  | .function as r, .function bs s => r.isVoid == s.isVoid && go as bs
  | .integer, .integer => true
  | .float, .float => true
  | .string, .string => true
  | .char, .char => true
  | .bool, .bool => true
  | .void, .void => true
  | .list, .list => true
  | .map, .map => true
  | _, _ => false
where
  go : List Ty → List Ty → Bool
    | a :: as, b :: bs => typeEq a b && go as bs
    | _, _ => true

inductive BinOp where
  | plus
  | dash
  | star
  | slash
  | eqEq
  | bangEq
  | moreThan
  | lessThan
  | moreEq
  | lessEq
  | ampAmp
  | pipePipe
  | ampersand
  | pipe
  | caret
  | lShift
  | rShift
  | eq
  deriving DecidableEq

inductive UnOp where
  | bang
  | dash
  | tilde
  deriving DecidableEq

inductive Expr where
  | integer (v : Int)
  | float (bits : Word)
  | string (s : String)
  | char (c : Char)
  | bool (b : Bool)
  | var (name : String)
  | binary (lhs : Expr) (op : BinOp) (rhs : Expr)
  | unary (op : UnOp) (child : Expr)
  | call (name : String) (args : List Expr)
  | member (lhs : Expr) (name : String)
  | enumVar (name var : String)
  | index (lhs index : Expr)
  | list (elements : List Expr)
  | map (pairs : List (String × Expr))
  | structInit (name : String) (fields : List (String × Expr))

/-- The body of a statement is a block; only an `else` may be followed by another statement. -/
inductive Stmt where
  | expr (e : Expr)
  | declVar (name : String) (kind : Ty) (value : Option Expr)
  | block (stmts : List Stmt)
  | importAs (name : Option String)
  | ifThen (condition : Expr) (body : List Stmt)
  | ifElse (condition : Expr) (body : List Stmt) (alt : Stmt)
  | while (condition : Expr) (body : List Stmt)
  | for (elemName : String) (array : Expr) (body : List Stmt)
  | try (body : List Stmt) (catches : List (String × List Stmt))
  | rethrow
  | return (val : Option Expr)

inductive Decl where
  | func (name : String) (params : List (String × Ty)) (ret : Ty) (body : Stmt)
  | var (name : String) (kind : Ty) (value : Option Expr)
  | struct (name : String) (fields : HashMap String Ty)
  | enum (name : String) (variants : HashMap String Int)
  | importAs (name : Option String)

abbrev Program := List Decl

theorem Expr.induction {P : Expr → Prop} (integer : ∀ v, P (.integer v))
    (float : ∀ bits, P (.float bits)) (string : ∀ s, P (.string s)) (char : ∀ c, P (.char c))
    (bool : ∀ b, P (.bool b)) (var : ∀ name, P (.var name))
    (binary : ∀ lhs op rhs, P lhs → P rhs → P (.binary lhs op rhs))
    (unary : ∀ op child, P child → P (.unary op child))
    (call : ∀ name args, (∀ e ∈ args, P e) → P (.call name args))
    (member : ∀ lhs name, P lhs → P (.member lhs name))
    (enumVar : ∀ name var, P (.enumVar name var))
    (index : ∀ lhs index, P lhs → P index → P (.index lhs index))
    (list : ∀ elements, (∀ e ∈ elements, P e) → P (.list elements))
    (map : ∀ pairs, (∀ p ∈ pairs, P p.2) → P (.map pairs))
    (structInit : ∀ name fields, (∀ p ∈ fields, P p.2) → P (.structInit name fields))
    (e : Expr) : P e :=
  @Expr.rec P (fun l => ∀ e ∈ l, P e) (fun l => ∀ p ∈ l, P p.2) (fun p => P p.2)
    integer float string char bool var (fun lhs op rhs => binary lhs op rhs)
    (fun op child => unary op child) (fun name args => call name args)
    (fun lhs name => member lhs name) enumVar (fun lhs i => index lhs i)
    (fun elements => list elements) (fun pairs => map pairs)
    (fun name fields => structInit name fields)
    (by simp) (fun _ _ h hs => List.forall_mem_cons.mpr ⟨h, hs⟩)
    (by simp) (fun _ _ h hs => List.forall_mem_cons.mpr ⟨h, hs⟩) (fun _ _ h => h) e

theorem Stmt.induction {P : Stmt → Prop} {Q : List Stmt → Prop}
    {R : List (String × List Stmt) → Prop} (expr : ∀ e, P (.expr e))
    (declVar : ∀ name kind value, P (.declVar name kind value))
    (block : ∀ stmts, Q stmts → P (.block stmts)) (importAs : ∀ name, P (.importAs name))
    (ifThen : ∀ condition body, Q body → P (.ifThen condition body))
    (ifElse : ∀ condition body alt, Q body → P alt → P (.ifElse condition body alt))
    (while_ : ∀ condition body, Q body → P (.while condition body))
    (for_ : ∀ elemName array body, Q body → P (.for elemName array body))
    (try_ : ∀ body catches, Q body → R catches → P (.try body catches))
    (rethrow : P .rethrow) (return_ : ∀ val, P (.return val)) (nil : Q [])
    (cons : ∀ s stmts, P s → Q stmts → Q (s :: stmts)) (noCatch : R [])
    (oneCatch : ∀ kind body catches, Q body → R catches → R ((kind, body) :: catches)) :
    (∀ s, P s) ∧ ∀ stmts, Q stmts :=
  ⟨@Stmt.rec P Q R (fun c => Q c.2) expr declVar (fun l => block l) importAs
      (fun c b => ifThen c b) (fun c b a => ifElse c b a) (fun c b => while_ c b)
      (fun x a b => for_ x a b) (fun b cs => try_ b cs) rethrow return_ nil
      (fun s l => cons s l) noCatch (fun c cs => oneCatch c.1 c.2 cs) (fun _ _ h => h),
    @Stmt.rec_1 P Q R (fun c => Q c.2) expr declVar (fun l => block l) importAs
      (fun c b => ifThen c b) (fun c b a => ifElse c b a) (fun c b => while_ c b)
      (fun x a b => for_ x a b) (fun b cs => try_ b cs) rethrow return_ nil
      (fun s l => cons s l) noCatch (fun c cs => oneCatch c.1 c.2 cs) (fun _ _ h => h)⟩

end Sol

end Relux
