import Relux.Sol.Codegen

/-! What the code generator emits: for an expression, instructions that neither jump nor enter or
leave anything, and calls; for a statement, such code held together by jumps. -/

namespace Relux

namespace Sol

def Inst.isStraight : Inst → Bool
  | .jump _ | .jumpFalse _ | .tryEnter _ | .tryExit | .call _ _ => false
  | _ => true

namespace Codegen

/-- The code that is emitted at an address, and the state after it, are as `Q` says. -/
def Emits (Q : Codegen → Nat → List Inst → Codegen → Prop) (e : Emit) : Prop :=
  ∀ cg pc code cg', e cg pc = some (code, cg') → Q cg pc code cg'

/-- What holds of straight code and of calls, and of code with the code that follows it. -/
structure Composes (Q : Codegen → Nat → List Inst → Codegen → Prop) : Prop where
  append : ∀ {cg cg₁ cg₂ pc code code'}, Q cg pc code cg₁ → Q cg₁ (pc + code.length) code' cg₂ →
    Q cg pc (code ++ code') cg₂
  straight : ∀ {cg cg' pc code}, cg'.functions = cg.functions →
    (∀ inst ∈ code, inst.isStraight = true) → Q cg pc code cg'
  call : ∀ {cg cg' pc target argCount}, cg'.functions = cg.functions →
    (target = 0 ∨ ∃ name, cg.functions.get? name = some target) →
    Q cg pc [.call target argCount] cg'

variable {Q : Codegen → Nat → List Inst → Codegen → Prop}

theorem andThen_eq_some {a b : Emit} {cg cg' : Codegen} {pc : Nat}
    {code : List Inst} (h : andThen a b cg pc = some (code, cg')) :
    ∃ code₁ cg₁ code₂, a cg pc = some (code₁, cg₁) ∧
      b cg₁ (pc + code₁.length) = some (code₂, cg') ∧ code = code₁ ++ code₂ := by
  unfold andThen at h
  cases hfirst : a cg pc with
  | none => simp [hfirst] at h
  | some first =>
    obtain ⟨code₁, cg₁⟩ := first
    simp only [hfirst] at h
    cases hsecond : b cg₁ (pc + code₁.length) with
    | none => simp [hsecond] at h
    | some second =>
      obtain ⟨code₂, cg₂⟩ := second
      simp only [hsecond] at h
      cases h
      exact ⟨code₁, cg₁, code₂, rfl, hsecond, rfl⟩

theorem emits_andThen (hQ : Composes Q) {a b : Emit} (ha : Emits Q a) (hb : Emits Q b) :
    Emits Q (andThen a b) := by
  intro cg pc code cg' h
  obtain ⟨code₁, cg₁, code₂, hfirst, hsecond, rfl⟩ := andThen_eq_some h
  exact hQ.append (ha cg pc code₁ cg₁ hfirst) (hb cg₁ _ code₂ _ hsecond)

theorem emits_of_straight (hQ : Composes Q) {e : Emit}
    (h : ∀ cg pc code cg', e cg pc = some (code, cg') →
      cg'.functions = cg.functions ∧ ∀ inst ∈ code, inst.isStraight = true) : Emits Q e := by
  intro cg pc code cg' he
  obtain ⟨hfunctions, hstraight⟩ := h cg pc code cg' he
  exact hQ.straight hfunctions hstraight

theorem emits_emit (hQ : Composes Q) {insts : List Inst}
    (h : ∀ inst ∈ insts, inst.isStraight = true) :
    Emits Q (emit insts) := by
  apply emits_of_straight hQ
  intro cg pc code cg' he
  cases he
  exact ⟨rfl, h⟩

theorem getOrCreateLocal_functions (cg : Codegen) (name : String) (ty : Ty) :
    (cg.getOrCreateLocal name ty).functions = cg.functions := by
  unfold getOrCreateLocal
  cases cg.locals.get? name <;> rfl

theorem emits_load (hQ : Composes Q) (name : String) : Emits Q (load name) := by
  apply emits_of_straight hQ
  intro cg pc code cg' he
  cases he
  exact ⟨getOrCreateLocal_functions _ _ _, List.all_eq_true.mp rfl⟩

theorem emits_store (hQ : Composes Q) (name : String) : Emits Q (store name) := by
  apply emits_of_straight hQ
  intro cg pc code cg' he
  cases he
  exact ⟨getOrCreateLocal_functions _ _ _, List.all_eq_true.mp rfl⟩

theorem emits_create (hQ : Composes Q) (name : String) (ty : Ty) : Emits Q (create name ty) := by
  apply emits_of_straight hQ
  intro cg pc code cg' he
  cases he
  exact ⟨getOrCreateLocal_functions _ _ _, by simp⟩

theorem binaryOp_straight (op : BinOp) (ty : Ty) :
    ∀ inst ∈ binaryOp op ty, inst.isStraight = true := by
  apply List.all_eq_true.mp
  cases ty <;> cases op <;> rfl

theorem unaryOp_straight (op : UnOp) (ty : Ty) :
    ∀ inst ∈ unaryOp op ty, inst.isStraight = true := by
  apply List.all_eq_true.mp
  cases ty <;> cases op <;> rfl

theorem printOp_straight (ty : Ty) : (printOp ty).isStraight = true := by
  cases ty <;> rfl

theorem collectionOp_straight {name : String} {op : Inst} (h : collectionOp name = some op) :
    op.isStraight = true := by
  have htable : ∀ e ∈ collectionOps, e.2.isStraight = true := by decide
  obtain ⟨e, he, hop⟩ := Option.map_eq_some_iff.mp h
  rw [← hop]
  exact htable e (List.mem_of_find?_eq_some he)

theorem emits_call (hQ : Composes Q) (name : String) (count : Nat) : Emits Q (call name count) := by
  intro cg pc code cg' h
  unfold call at h
  cases hfunction : cg.functions.get? name with
  | none =>
    simp only [hfunction] at h
    cases h
    exact hQ.call rfl (Or.inl rfl)
  | some target =>
    simp only [hfunction] at h
    cases h
    exact hQ.call rfl (Or.inr ⟨name, hfunction⟩)

theorem emits_callCode (hQ : Composes Q) (name : String) (args : List Expr) {all first : Emit}
    (hall : Emits Q all) (hfirst : Emits Q first) : Emits Q (callCode name args all first) := by
  have hone : ∀ {inst : Inst}, inst.isStraight = true → Emits Q (emit [inst]) := by
    intro inst hinst
    exact emits_emit hQ (by simpa using hinst)
  unfold callCode
  by_cases hprint : name = "print" ∧ args ≠ []
  · rw [if_pos hprint]
    refine emits_andThen hQ hfirst (emits_of_straight hQ ?_)
    intro cg pc code cg' he
    cases he
    exact ⟨rfl, by simpa using printOp_straight _⟩
  · rw [if_neg hprint]
    iterate 6
      refine iteInduction (fun _ => ?_) (fun _ => ?_)
      · first
          | exact emits_andThen hQ hall (hone rfl)
          | exact hone rfl
    cases hop : collectionOp name with
    | none => exact emits_andThen hQ hall (emits_call hQ name args.length)
    | some op => exact emits_andThen hQ hall (hone (collectionOp_straight hop))

theorem emits_refused : Emits Q (fun _ _ => none) := by
  intro cg pc code cg' h
  cases h

theorem emits_compileArgs (hQ : Composes Q) {es : List Expr} (h : ∀ e ∈ es, Emits Q (compile e)) :
    Emits Q (compileArgs es) := by
  induction es with
  | nil => exact emits_emit hQ (by simp)
  | cons e es ih =>
    rw [compileArgs]
    exact emits_andThen hQ (h e List.mem_cons_self)
      (ih (fun e' he' => h e' (List.mem_cons_of_mem _ he')))

theorem emits_compilePairs (hQ : Composes Q) {pairs : List (String × Expr)}
    (h : ∀ p ∈ pairs, Emits Q (compile p.2)) :
    Emits Q (compilePairs pairs) := by
  induction pairs with
  | nil => exact emits_emit hQ (by simp)
  | cons p pairs ih =>
    obtain ⟨key, e⟩ := p
    refine emits_andThen hQ (emits_emit hQ (List.all_eq_true.mp rfl))
      (emits_andThen hQ ?_ ?_)
    · exact h (key, e) List.mem_cons_self
    · exact ih (fun p hp => h p (List.mem_cons_of_mem _ hp))

variable {fields : List (String × Expr)}

theorem emits_compileField (hQ : Composes Q)
    (h : ∀ p ∈ fields, Emits Q (compile p.2)) (name : String) :
    Emits Q (compileField fields name) := by
  induction fields with
  | nil => exact emits_emit hQ (List.all_eq_true.mp rfl)
  | cons p fields ih =>
    obtain ⟨field, e⟩ := p
    refine iteInduction (fun _ => ?_) (fun _ => ?_)
    · exact h (field, e) List.mem_cons_self
    · exact ih (fun p hp => h p (List.mem_cons_of_mem _ hp))

theorem emits_fields (hQ : Composes Q)
    (h : ∀ p ∈ fields, Emits Q (compile p.2)) (layout : List (String × Ty)) :
    Emits Q (layout.foldr (fun f rest => andThen (compileField fields f.1) rest) (emit [])) := by
  induction layout with
  | nil => exact emits_emit hQ (by simp)
  | cons f layout ih => exact emits_andThen hQ (emits_compileField hQ h f.1) ih

structure EmitsExpr (Q : Codegen → Nat → List Inst → Codegen → Prop) (e : Expr) : Prop where
  code : Emits Q (compile e)
  assign : ∀ rhs, Emits Q rhs → Emits Q (compileAssign e rhs)

theorem emits_expr (hQ : Composes Q) (e : Expr) : EmitsExpr Q e := by
  have hone : ∀ {inst : Inst}, inst.isStraight = true → Emits Q (emit [inst]) := by
    intro inst hinst
    exact emits_emit hQ (by simpa using hinst)
  induction e using Expr.induction with
  | integer v | float bits | string s | char c | bool b =>
    exact ⟨hone rfl, fun _ _ => emits_refused⟩
  | var name =>
    refine ⟨emits_load hQ name, fun rhs hrhs => ?_⟩
    exact emits_andThen hQ hrhs (emits_andThen hQ (hone rfl) (emits_store hQ name))
  | binary lhs op rhs hlhs hrhs =>
    refine ⟨?_, fun _ _ => emits_refused⟩
    rw [compile]
    by_cases hop : op = .eq
    · rw [if_pos hop]
      exact hlhs.assign _ hrhs.code
    · rw [if_neg hop]
      refine emits_andThen hQ hlhs.code (emits_andThen hQ hrhs.code (emits_of_straight hQ ?_))
      intro cg pc code cg' he
      cases he
      exact ⟨rfl, binaryOp_straight op _⟩
  | unary op child hchild =>
    refine ⟨emits_andThen hQ hchild.code (emits_of_straight hQ ?_), fun _ _ => emits_refused⟩
    intro cg pc code cg' he
    cases he
    exact ⟨rfl, unaryOp_straight op _⟩
  | call name args hargs =>
    have hfirst : Emits Q (compileFirst args) := by
      cases args with
      | nil => exact emits_emit hQ (by simp)
      | cons e es => exact (hargs e List.mem_cons_self).code
    have hall := emits_compileArgs hQ (fun e he => (hargs e he).code)
    exact ⟨emits_callCode hQ name args hall hfirst, fun _ _ => emits_refused⟩
  | member lhs name hlhs =>
    refine ⟨?_, fun rhs hrhs => ?_⟩
    · intro cg pc code cg' h
      exact emits_andThen hQ hlhs.code (hone rfl) cg pc code cg' h
    · refine emits_andThen hQ hrhs (emits_andThen hQ (hone rfl) ?_)
      intro cg pc code cg' h
      exact emits_andThen hQ hlhs.code (hone rfl) cg pc code cg' h
  | enumVar name var => exact ⟨hone rfl, fun _ _ => emits_refused⟩
  | index lhs idx hlhs hidx =>
    refine ⟨emits_andThen hQ hlhs.code (emits_andThen hQ hidx.code (hone rfl)), fun rhs hrhs => ?_⟩
    exact emits_andThen hQ hlhs.code (emits_andThen hQ hidx.code (emits_andThen hQ hrhs (hone rfl)))
  | list elements helements =>
    have hall := emits_compileArgs hQ (fun e he => (helements e he).code)
    exact ⟨emits_andThen hQ hall (hone rfl), fun _ _ => emits_refused⟩
  | map pairs hpairs =>
    have hall := emits_compilePairs hQ (fun p hp => (hpairs p hp).code)
    exact ⟨emits_andThen hQ hall (hone rfl), fun _ _ => emits_refused⟩
  | structInit name fields hfields =>
    refine ⟨?_, fun _ _ => emits_refused⟩
    intro cg pc code cg' h
    rw [compile] at h
    cases hlayout : cg.structLayouts.get? name with
    | none =>
      simp only [hlayout] at h
      exact hone (show (Inst.newStruct 0).isStraight = true from rfl) cg pc code cg' h
    | some layout =>
      simp only [hlayout] at h
      exact emits_andThen hQ (emits_fields hQ (fun p hp => (hfields p hp).code) layout) (hone rfl)
        cg pc code cg' h

theorem emits_compile (hQ : Composes Q) (e : Expr) : Emits Q (compile e) := (emits_expr hQ e).code

theorem iteration_straight (ty : Ty) :
    (iteration ty).1.isStraight = true ∧ (iteration ty).2.1.isStraight = true := by
  cases ty <;> exact ⟨rfl, rfl⟩

theorem emits_one (hQ : Composes Q) {inst : Inst} (h : inst.isStraight = true) :
    Emits Q (emit [inst]) :=
  emits_emit hQ (by simpa using h)

theorem emits_forHead (hQ : Composes Q) (elem arr idx len : String) (ty : Ty) {array : Emit}
    (h : Emits Q array) :
    Emits Q (forHead elem arr idx len (iteration ty) array) := by
  refine emits_andThen hQ (emits_create hQ _ _) (emits_andThen hQ h ?_)
  refine emits_andThen hQ (emits_create hQ _ _) (emits_andThen hQ (emits_store hQ _) ?_)
  refine emits_andThen hQ (emits_load hQ _)
    (emits_andThen hQ (emits_one hQ (iteration_straight ty).1) ?_)
  refine emits_andThen hQ (emits_create hQ _ _) (emits_andThen hQ (emits_store hQ _) ?_)
  exact emits_andThen hQ (emits_one hQ rfl)
    (emits_andThen hQ (emits_create hQ _ _) (emits_store hQ _))

theorem emits_forTest (hQ : Composes Q) (idx len : String) : Emits Q (forTest idx len) :=
  emits_andThen hQ (emits_load hQ _) (emits_andThen hQ (emits_load hQ _) (emits_one hQ rfl))

theorem emits_forItem (hQ : Composes Q) (elem arr idx : String) (ty : Ty) :
    Emits Q (forItem elem arr idx (iteration ty)) := by
  refine emits_andThen hQ (emits_load hQ _) (emits_andThen hQ (emits_load hQ _) ?_)
  exact emits_andThen hQ (emits_one hQ (iteration_straight ty).2) (emits_store hQ _)

theorem emits_forNext (hQ : Composes Q) (idx : String) : Emits Q (forNext idx) := by
  refine emits_andThen hQ (emits_load hQ _) (emits_andThen hQ (emits_emit hQ ?_) (emits_store hQ _))
  exact List.all_eq_true.mp rfl

theorem emits_declVar (hQ : Composes Q) (name : String) (kind : Ty) (value : Option Expr) :
    Emits Q (compileStmt (.declVar name kind value)) := by
  cases value with
  | none => exact emits_create hQ name kind
  | some e =>
    exact emits_andThen hQ (emits_compile hQ e)
      (emits_andThen hQ (emits_create hQ _ _) (emits_store hQ _))

theorem emits_popped (hQ : Composes Q) (s : Stmt) :
    Emits Q (emit (if isExpressionNode s then [.pop] else [])) := by
  refine emits_emit hQ ?_
  by_cases hnode : isExpressionNode s = true
  · rw [if_pos hnode]
    exact List.all_eq_true.mp rfl
  · simp [hnode]

/-- What holds of the code of statements: `R` of code that may be left at its end if `ends`, and
`C` of the clauses of a `try`, which jump to an address behind them. -/
structure Compiles (R : HashMap String Nat → Nat → List Inst → Bool → Prop)
    (C : HashMap String Nat → Nat → Nat → List Inst → Bool → Prop) : Prop where
  append : ∀ {f pc code code' ends ends'}, R f pc code ends →
    R f (pc + code.length) code' ends' → R f pc (code ++ code') (ends && ends')
  straight : ∀ {f pc code}, (∀ inst ∈ code, inst.isStraight = true) → R f pc code true
  call : ∀ {f pc target argCount}, (target = 0 ∨ ∃ name, f.get? name = some target) →
    R f pc [.call target argCount] true
  stop : ∀ {f pc inst}, inst = .ret ∨ inst = .retVal ∨ inst = .rethrow → R f pc [inst] false
  ifThen : ∀ {f pc c b ends}, R f pc c true → R f (pc + c.length + 1) b ends →
    R f pc (c ++ .jumpFalse (pc + c.length + 1 + b.length) :: b) true
  ifElse : ∀ {f pc c b a ends ends'}, R f pc c true → R f (pc + c.length + 1) b ends →
    R f (pc + c.length + 1 + b.length + 1) a ends' →
    R f pc (c ++ .jumpFalse (pc + c.length + 1 + b.length + 1) :: b ++
      .jump (pc + c.length + 1 + b.length + 1 + a.length) :: a) (ends || ends')
  loop : ∀ {f pc t b ends}, R f pc t true → R f (pc + t.length + 1) b ends →
    R f pc (t ++ .jumpFalse (pc + t.length + 1 + b.length + 1) :: b ++ [.jump pc]) true
  noClause : ∀ {f endPc pc}, C f endPc pc [] false
  clause : ∀ {f endPc pc kind b ends}, R f (clauseStart kind pc) b ends →
    C f endPc pc (clause kind pc b ++ [.jump endPc]) ends
  clauses : ∀ {f endPc pc code code' ends ends'}, C f endPc pc code ends →
    C f endPc (pc + code.length) code' ends' → C f endPc pc (code ++ code') (ends || ends')
  tryCatch : ∀ {f pc b clauses endPc ends ends'},
    endPc = pc + 1 + b.length + 2 + (clausesCode clauses endPc).length + 1 →
    R f (pc + 1) b ends → C f endPc (pc + 1 + b.length + 2) (clausesCode clauses endPc) ends' →
    R f pc (.tryEnter (pc + 1 + b.length + 2) :: b ++ .tryExit :: .jump endPc ::
      clausesCode clauses endPc ++ [.rethrow]) (ends || ends')

def Yields (R : HashMap String Nat → Nat → List Inst → Bool → Prop) (ends : Bool) : Emit → Prop :=
  Emits (fun cg pc code cg' => cg'.functions = cg.functions ∧ R cg.functions pc code ends)

variable {R : HashMap String Nat → Nat → List Inst → Bool → Prop}
  {C : HashMap String Nat → Nat → Nat → List Inst → Bool → Prop} {a b : Emit} {ends ends' : Bool}

theorem yields_andThen (hR : Compiles R C) (ha : Yields R ends a) (hb : Yields R ends' b) :
    Yields R (ends && ends') (andThen a b) := by
  intro cg pc code cg' h
  obtain ⟨code₁, cg₁, code₂, hfirst, hsecond, rfl⟩ := andThen_eq_some h
  obtain ⟨hfunctions, hcode⟩ := ha cg pc code₁ cg₁ hfirst
  obtain ⟨hfunctions', hcode'⟩ := hb cg₁ _ code₂ _ hsecond
  rw [hfunctions] at hcode'
  exact ⟨hfunctions'.trans hfunctions, hR.append hcode hcode'⟩

theorem Compiles.composes (hR : Compiles R C) : Composes (fun cg pc code cg' =>
    cg'.functions = cg.functions ∧ R cg.functions pc code true) := by
  constructor
  · rintro cg cg₁ cg₂ pc code code' ⟨hfunctions, hcode⟩ ⟨hfunctions', hcode'⟩
    rw [hfunctions] at hcode'
    exact ⟨hfunctions'.trans hfunctions, hR.append hcode hcode'⟩
  · intro cg cg' pc code hfunctions hstraight
    exact ⟨hfunctions, hR.straight hstraight⟩
  · intro cg cg' pc target argCount hfunctions htarget
    exact ⟨hfunctions, hR.call htarget⟩

theorem clausesCode_length (clauses : List (List Inst)) (endPc endPc' : Nat) :
    (clausesCode clauses endPc).length = (clausesCode clauses endPc').length := by
  induction clauses with
  | nil => rfl
  | cons c clauses ih =>
    simp only [clausesCode, List.flatMap_cons, List.length_append, List.length_cons] at ih ⊢
    rw [ih]

theorem leaveScope_functions (saved cg : Codegen) :
    (leaveScope saved cg).functions = cg.functions := rfl

/-- The clauses of a `try`, whose jumps behind the last one are not placed yet. -/
def YieldsCatches (C : HashMap String Nat → Nat → Nat → List Inst → Bool → Prop)
    (catches : List (String × List Stmt)) : Prop :=
  ∀ cg pc clauses cg', compileCatches catches cg pc = some (clauses, cg') →
    cg'.functions = cg.functions ∧ ∀ endPc,
      C cg.functions endPc pc (clausesCode clauses endPc) (!Analyzer.allReturn catches)

variable {body : List Stmt} {condition : Expr} {catches : List (String × List Stmt)}

theorem yields_compile (hR : Compiles R C) (e : Expr) : Yields R true (compile e) :=
  emits_compile hR.composes e

/-- A condition, and the body that is placed behind it. -/
theorem yields_guarded (hR : Compiles R C) (hbody : Yields R ends (compileStmts body))
    {cg cg₁ cg₂ : Codegen} {pc pc' : Nat} {c b : List Inst}
    (hc : compile condition cg pc = some (c, cg₁))
    (hb : compileStmts body cg₁ pc' = some (b, cg₂)) :
    cg₂.functions = cg.functions ∧ R cg.functions pc c true ∧ R cg.functions pc' b ends := by
  obtain ⟨hfunctions, hcode⟩ := yields_compile hR condition cg pc c cg₁ hc
  obtain ⟨hfunctions', hcode'⟩ := hbody cg₁ _ b cg₂ hb
  rw [hfunctions] at hcode'
  exact ⟨hfunctions'.trans hfunctions, hcode, hcode'⟩

theorem yields_ifThen (hR : Compiles R C) (hbody : Yields R ends (compileStmts body)) :
    Yields R true (compileStmt (.ifThen condition body)) := by
  intro cg pc code cg' h
  obtain ⟨⟨c, cg₁⟩, hc, h⟩ := Option.bind_eq_some_iff.mp h
  obtain ⟨⟨b, cg₂⟩, hb, h⟩ := Option.bind_eq_some_iff.mp h
  cases h
  obtain ⟨hfunctions, hcode, hcode'⟩ := yields_guarded hR hbody hc hb
  exact ⟨hfunctions, hR.ifThen hcode hcode'⟩

theorem yields_ifElse (hR : Compiles R C) {alt : Stmt} (hbody : Yields R ends (compileStmts body))
    (halt : Yields R ends' (compileStmt alt)) :
    Yields R (ends || ends') (compileStmt (.ifElse condition body alt)) := by
  intro cg pc code cg' h
  obtain ⟨⟨c, cg₁⟩, hc, h⟩ := Option.bind_eq_some_iff.mp h
  obtain ⟨⟨b, cg₂⟩, hb, h⟩ := Option.bind_eq_some_iff.mp h
  obtain ⟨⟨a, cg₃⟩, ha, h⟩ := Option.bind_eq_some_iff.mp h
  cases h
  obtain ⟨hfunctions, hcode, hcode'⟩ := yields_guarded hR hbody hc hb
  obtain ⟨hfunctions', hcode''⟩ := halt (leaveScope cg₁ cg₂) _ a _ ha
  rw [leaveScope_functions, hfunctions] at hfunctions' hcode''
  exact ⟨hfunctions', hR.ifElse hcode hcode' hcode''⟩

theorem yields_while (hR : Compiles R C) (hbody : Yields R ends (compileStmts body)) :
    Yields R true (compileStmt (.while condition body)) := by
  intro cg pc code cg' h
  obtain ⟨⟨c, cg₁⟩, hc, h⟩ := Option.bind_eq_some_iff.mp h
  obtain ⟨⟨b, cg₂⟩, hb, h⟩ := Option.bind_eq_some_iff.mp h
  cases h
  obtain ⟨hfunctions, hcode, hcode'⟩ := yields_guarded hR hbody hc hb
  exact ⟨hfunctions, hR.loop hcode hcode'⟩

theorem yields_for (hR : Compiles R C) {elemName : String} {array : Expr}
    (hbody : Yields R ends (compileStmts body)) :
    Yields R true (compileStmt (.for elemName array body)) := by
  intro cg pc code cg' h
  obtain ⟨⟨hd, cg₁⟩, hhead, h⟩ := Option.bind_eq_some_iff.mp h
  obtain ⟨⟨t, cg₂⟩, htest, h⟩ := Option.bind_eq_some_iff.mp h
  obtain ⟨⟨i, cg₃⟩, hitem, h⟩ := Option.bind_eq_some_iff.mp h
  obtain ⟨⟨b, cg₄⟩, hb, h⟩ := Option.bind_eq_some_iff.mp h
  obtain ⟨⟨n, cg₅⟩, hnext, h⟩ := Option.bind_eq_some_iff.mp h
  cases h
  have hQ := hR.composes
  obtain ⟨hf₁, hn₁⟩ := emits_forHead hQ _ _ _ _ _ (emits_compile hQ array) _ _ _ _ hhead
  obtain ⟨hf₂, hn₂⟩ := emits_forTest hQ _ _ _ _ _ _ htest
  obtain ⟨hf₃, hn₃⟩ := emits_forItem hQ _ _ _ _ _ _ _ _ hitem
  obtain ⟨hf₄, hn₄⟩ := hbody _ _ _ _ hb
  obtain ⟨hf₅, hn₅⟩ := emits_forNext hQ _ _ _ _ _ hnext
  simp only [leaveScope_functions] at hf₅ hn₅
  rw [hf₁] at hf₂ hn₂
  rw [hf₂] at hf₃ hn₃
  rw [hf₃] at hf₄ hn₄
  rw [hf₄] at hf₅ hn₅
  refine ⟨hf₅, ?_⟩
  have hround : R cg.functions (pc + hd.length + t.length + 1) (i ++ b ++ n)
      (true && ends && true) := by
    refine hR.append (hR.append hn₃ hn₄) ?_
    rw [List.length_append, ← Nat.add_assoc]
    exact hn₅
  have hloop := hR.append hn₁ (hR.loop hn₂ hround)
  have hlength : pc + hd.length + t.length + 1 + (i ++ b ++ n).length + 1 =
      pc + hd.length + t.length + 1 + i.length + b.length + n.length + 1 := by
    simp only [List.length_append]
    omega
  rw [hlength] at hloop
  simpa only [List.append_assoc, List.cons_append, Bool.and_self] using hloop

theorem yields_try (hR : Compiles R C) (hbody : Yields R ends (compileStmts body))
    (hcatches : YieldsCatches C catches) :
    Yields R (ends || !Analyzer.allReturn catches) (compileStmt (.try body catches)) := by
  intro cg pc code cg' h
  obtain ⟨⟨b, cg₁⟩, hb, h⟩ := Option.bind_eq_some_iff.mp h
  obtain ⟨⟨clauses, cg₂⟩, hclauses, h⟩ := Option.bind_eq_some_iff.mp h
  cases h
  obtain ⟨hfunctions, hcode⟩ := hbody cg _ b cg₁ hb
  obtain ⟨hfunctions', hcode'⟩ := hcatches (leaveScope cg cg₁) _ clauses _ hclauses
  rw [leaveScope_functions, hfunctions] at hfunctions' hcode'
  refine ⟨hfunctions', hR.tryCatch ?_ hcode (hcode' _)⟩
  exact congrArg (fun n => pc + 1 + b.length + 2 + n + 1) (clausesCode_length clauses 0 _)

theorem yieldsCatches_cons (hR : Compiles R C) {kind : String}
    (hbody : Yields R (!Analyzer.anyReturns body) (compileStmts body))
    (hcatches : YieldsCatches C catches) : YieldsCatches C ((kind, body) :: catches) := by
  intro cg pc clauses cg' h
  obtain ⟨⟨b, cg₁⟩, hb, h⟩ := Option.bind_eq_some_iff.mp h
  obtain ⟨⟨rest, cg₂⟩, hrest, h⟩ := Option.bind_eq_some_iff.mp h
  cases h
  obtain ⟨hfunctions, hcode⟩ := hbody cg _ b cg₁ hb
  obtain ⟨hfunctions', hcode'⟩ := hcatches (leaveScope cg cg₁) _ rest _ hrest
  rw [leaveScope_functions, hfunctions] at hfunctions' hcode'
  refine ⟨hfunctions', fun endPc => ?_⟩
  rw [Analyzer.allReturn, Bool.not_and]
  refine hR.clauses (hR.clause hcode) ?_
  rw [List.length_append, List.length_singleton]
  exact hcode' endPc

theorem yields_stmt (hR : Compiles R C) (s : Stmt) :
    Yields R (!Analyzer.alwaysReturns s) (compileStmt s) := by
  have hboth := @Stmt.induction (fun s => Yields R (!Analyzer.alwaysReturns s) (compileStmt s))
    (fun stmts => Yields R (!Analyzer.anyReturns stmts) (compileStmts stmts)) (YieldsCatches C)
  have hQ := hR.composes
  have hnil : Yields R true (emit []) := emits_emit hQ (by simp)
  have hstop : ∀ {inst : Inst}, (inst = .ret ∨ inst = .retVal ∨ inst = .rethrow) →
      Yields R false (emit [inst]) := by
    intro inst hinst cg pc code cg' h
    cases h
    exact ⟨rfl, hR.stop hinst⟩
  refine (hboth (yields_compile hR) (emits_declVar hQ) ?_ (fun _ => hnil)
    (fun _ _ h => yields_ifThen hR h) ?_ (fun _ _ h => yields_while hR h)
    (fun _ _ _ h => yields_for hR h) ?_ (hstop (.inr (.inr rfl))) ?_ hnil ?_ ?_
    (fun _ _ _ h h' => yieldsCatches_cons hR h h')).1 s
  · intro stmts h cg pc code cg' he
    obtain ⟨⟨c, cg₁⟩, hc, he⟩ := Option.map_eq_some_iff.mp he
    cases he
    exact h cg pc c cg₁ hc
  · intro condition body alt hbody halt
    rw [Analyzer.alwaysReturns, Bool.not_and]
    exact yields_ifElse hR hbody halt
  · intro body catches hbody hcatches
    rw [Analyzer.alwaysReturns, Bool.not_and]
    exact yields_try hR hbody hcatches
  · intro val
    cases val with
    | none => exact hstop (.inl rfl)
    | some e => exact yields_andThen hR (yields_compile hR e) (hstop (.inr (.inl rfl)))
  · intro s stmts hs hstmts
    rw [Analyzer.anyReturns, Bool.not_or]
    exact yields_andThen hR hs (yields_andThen hR (emits_popped hQ s) hstmts)
  · intro cg pc clauses cg' h
    cases h
    exact ⟨rfl, fun endPc => hR.noClause⟩

theorem yields_decl (hR : Compiles R C) {d : Decl}
    (hd : ∀ name params ret body, d ≠ .func name params ret body) :
    Yields R true (compileDecl d) := by
  have hnil : Yields R true (emit []) := emits_emit hR.composes (by simp)
  cases d with
  | var name kind value => exact emits_declVar hR.composes name kind value
  | func name params ret body => exact absurd rfl (hd name params ret body)
  | struct name fields => exact hnil
  | enum name variants => exact hnil
  | importAs name => exact hnil

end Codegen

end Sol

end Relux
