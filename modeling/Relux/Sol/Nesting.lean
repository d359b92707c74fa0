import Relux.Sol.Emission

/-! The code of a program is nested: a body of a `try` is entered and left in one place each,
and no jump crosses its border. -/

namespace Relux

namespace Sol

def scan (bodies : List Nat) : Inst → List Nat
  | .tryEnter catchPc => catchPc :: bodies
  | .tryExit => bodies.tail
  | _ => bodies

/-- The bodies of `try` around an address, each by the address of its clauses, innermost
first. -/
def bodiesAt (program : List Inst) (pc : Nat) : List Nat := (program.take pc).foldl scan []

/-- `L` goes through the code at this address as `bodiesAt` does. -/
def Follows (L : Nat → List Nat) (pc : Nat) : List Inst → Prop
  | [] => True
  | inst :: code => L (pc + 1) = scan (L pc) inst ∧ Follows L (pc + 1) code

def TargetAt (L : Nat → List Nat) (pc : Nat) : Inst → Prop
  | .jump target | .jumpFalse target | .tryEnter target => L target = L pc
  | .tryExit => L pc ≠ []
  | .call target _ => L target = []
  | _ => True

def Targets (L : Nat → List Nat) (pc : Nat) : List Inst → Prop
  | [] => True
  | inst :: code => TargetAt L pc inst ∧ Targets L (pc + 1) code

def Entries (L : Nat → List Nat) (functions : HashMap String Nat) : Prop :=
  L 0 = [] ∧ ∀ name target, functions.get? name = some target → L target = []

variable {L : Nat → List Nat} {code : List Inst} {code' : List Inst}

section
variable {p : Nat → Inst → Prop} {q : Nat → List Inst → Prop} {pc : Nat}
  (hnil : ∀ pc, q pc []) (hcons : ∀ pc inst code, q pc (inst :: code) ↔ p pc inst ∧ q (pc + 1) code)
include hnil hcons

theorem pointwise_append : q pc (code ++ code') ↔ q pc code ∧ q (pc + code.length) code' := by
  induction code generalizing pc with
  | nil => simp [hnil]
  | cons inst code ih =>
    rw [List.cons_append, hcons, hcons, ih, List.length_cons,
      show pc + 1 + code.length = pc + (code.length + 1) from by omega, and_assoc]

theorem pointwise_iff : q pc code ↔ ∀ i inst, code[i]? = some inst → p (pc + i) inst := by
  induction code generalizing pc with
  | nil => simp [hnil]
  | cons inst code ih =>
    rw [hcons, ih]
    constructor
    · rintro ⟨hfirst, hrest⟩ i inst' hi
      cases i with
      | zero =>
        cases hi
        exact hfirst
      | succ i =>
        rw [show pc + (i + 1) = pc + 1 + i from by omega]
        exact hrest i inst' hi
    · intro h
      refine ⟨h 0 inst rfl, fun i inst' hi => ?_⟩
      have hat := h (i + 1) inst' hi
      rw [show pc + (i + 1) = pc + 1 + i from by omega] at hat
      exact hat

end

theorem follows_append {pc : Nat} :
    Follows L pc (code ++ code') ↔ Follows L pc code ∧ Follows L (pc + code.length) code' :=
  pointwise_append (fun _ => trivial) (fun _ _ _ => Iff.rfl)

theorem targets_append {pc : Nat} :
    Targets L pc (code ++ code') ↔ Targets L pc code ∧ Targets L (pc + code.length) code' :=
  pointwise_append (fun _ => trivial) (fun _ _ _ => Iff.rfl)

structure Nested (functions : HashMap String Nat) (pc : Nat) (code : List Inst) : Prop where
  balanced : ∀ L, Follows L pc code → L (pc + code.length) = L pc
  targets : ∀ L, Follows L pc code → Entries L functions → Targets L pc code

variable {inst : Inst}

theorem scan_of_isStraight (h : inst.isStraight = true) (bodies : List Nat) :
    scan bodies inst = bodies := by
  cases inst with
  | tryEnter catchPc => cases h
  | tryExit => cases h
  | _ => rfl

theorem targetAt_of_isStraight (h : inst.isStraight = true) (pc : Nat) : TargetAt L pc inst := by
  cases inst with
  | jump target | jumpFalse target | tryEnter catchPc | tryExit | call target argCount => cases h
  | _ => trivial

variable {functions : HashMap String Nat} {pc : Nat}

theorem Nested.nil : Nested functions pc [] := ⟨fun _ _ => rfl, fun _ _ _ => trivial⟩

theorem Nested.append {code : List Inst} (h : Nested functions pc code)
    (h' : Nested functions (pc + code.length) code') : Nested functions pc (code ++ code') := by
  constructor
  · intro L hL
    obtain ⟨hfirst, hsecond⟩ := follows_append.mp hL
    rw [List.length_append, ← Nat.add_assoc, h'.balanced L hsecond, h.balanced L hfirst]
  · intro L hL hentries
    obtain ⟨hfirst, hsecond⟩ := follows_append.mp hL
    exact targets_append.mpr ⟨h.targets L hfirst hentries, h'.targets L hsecond hentries⟩

theorem Nested.straight (h : ∀ inst ∈ code, inst.isStraight = true) : Nested functions pc code := by
  induction code generalizing pc with
  | nil => exact .nil
  | cons inst code ih =>
    have hinst := h inst List.mem_cons_self
    have hrest : Nested functions (pc + 1) code :=
      ih (fun inst' hinst' => h inst' (List.mem_cons_of_mem _ hinst'))
    have hone : Nested functions pc [inst] := by
      constructor
      · intro L hL
        rw [List.length_singleton, hL.1, scan_of_isStraight hinst]
      · exact fun L _ _ => ⟨targetAt_of_isStraight hinst pc, trivial⟩
    exact hone.append hrest

theorem Nested.call {target argCount : Nat}
    (h : target = 0 ∨ ∃ name, functions.get? name = some target) :
    Nested functions pc [.call target argCount] := by
  constructor
  · exact fun L hL => hL.1
  · intro L _ hentries
    refine ⟨?_, trivial⟩
    rcases h with h | ⟨name, h⟩
    · rw [h]
      exact hentries.1
    · exact hentries.2 name target h

namespace Codegen

end Codegen

variable {b : List Inst} {c : List Inst}

theorem Nested.ifThen (hc : Nested functions pc c) (hb : Nested functions (pc + c.length + 1) b) :
    Nested functions pc (c ++ .jumpFalse (pc + c.length + 1 + b.length) :: b) := by
  have hend : ∀ L, Follows L pc (c ++ .jumpFalse (pc + c.length + 1 + b.length) :: b) →
      L (pc + c.length + 1 + b.length) = L pc ∧ L (pc + c.length) = L pc := by
    intro L hL
    obtain ⟨hcond, hjump, hbody⟩ := follows_append.mp hL
    have hat := hc.balanced L hcond
    exact ⟨((hb.balanced L hbody).trans hjump).trans hat, hat⟩
  constructor
  · intro L hL
    rw [← (hend L hL).1]
    exact congrArg L (by simp only [List.length_append, List.length_cons]; omega)
  · intro L hL hentries
    obtain ⟨hcond, hjump, hbody⟩ := follows_append.mp hL
    obtain ⟨hat, hat'⟩ := hend L hL
    refine targets_append.mpr ⟨hc.targets L hcond hentries, ?_, hb.targets L hbody hentries⟩
    exact hat.trans hat'.symm

theorem Nested.ifElse {a : List Inst} (hc : Nested functions pc c)
    (hb : Nested functions (pc + c.length + 1) b)
    (ha : Nested functions (pc + c.length + 1 + b.length + 1) a) :
    Nested functions pc (c ++ .jumpFalse (pc + c.length + 1 + b.length + 1) :: b ++
      .jump (pc + c.length + 1 + b.length + 1 + a.length) :: a) := by
  have hend : ∀ L, Follows L pc (c ++ .jumpFalse (pc + c.length + 1 + b.length + 1) :: b ++
      .jump (pc + c.length + 1 + b.length + 1 + a.length) :: a) →
      Follows L pc c ∧ Follows L (pc + c.length + 1) b ∧
        Follows L (pc + c.length + 1 + b.length + 1) a ∧ L (pc + c.length) = L pc ∧
        L (pc + c.length + 1 + b.length) = L pc ∧ L (pc + c.length + 1 + b.length + 1) = L pc ∧
        L (pc + c.length + 1 + b.length + 1 + a.length) = L pc := by
    intro L hL
    rw [List.append_assoc] at hL
    obtain ⟨hcond, hjump, hrest⟩ := follows_append.mp hL
    obtain ⟨hbody, hjump', halt⟩ := follows_append.mp hrest
    have hat := hc.balanced L hcond
    have hat' := (hb.balanced L hbody).trans (hjump.trans hat)
    have hat'' : L (pc + c.length + 1 + b.length + 1) = L pc := hjump'.trans hat'
    exact ⟨hcond, hbody, halt, hat, hat', hat'', (ha.balanced L halt).trans hat''⟩
  constructor
  · intro L hL
    obtain ⟨_, _, _, _, _, _, hat⟩ := hend L hL
    rw [← hat]
    exact congrArg L (by simp only [List.length_append, List.length_cons]; omega)
  · intro L hL hentries
    obtain ⟨hcond, hbody, halt, hat, hat', helse, hafter⟩ := hend L hL
    rw [List.append_assoc]
    refine targets_append.mpr ⟨hc.targets L hcond hentries, helse.trans hat.symm, ?_⟩
    exact targets_append.mpr ⟨hb.targets L hbody hentries, hafter.trans hat'.symm,
      ha.targets L halt hentries⟩

theorem Nested.loop {t : List Inst} (ht : Nested functions pc t)
    (hb : Nested functions (pc + t.length + 1) b) :
    Nested functions pc
      (t ++ .jumpFalse (pc + t.length + 1 + b.length + 1) :: b ++ [Inst.jump pc]) := by
  have hend : ∀ L,
      Follows L pc (t ++ .jumpFalse (pc + t.length + 1 + b.length + 1) :: b ++ [Inst.jump pc]) →
      Follows L pc t ∧ Follows L (pc + t.length + 1) b ∧ L (pc + t.length) = L pc ∧
        L (pc + t.length + 1 + b.length) = L pc ∧
        L (pc + t.length + 1 + b.length + 1) = L pc := by
    intro L hL
    rw [List.append_assoc] at hL
    obtain ⟨htest, hjump, hrest⟩ := follows_append.mp hL
    obtain ⟨hbody, hback, _⟩ := follows_append.mp hrest
    have hat := ht.balanced L htest
    have hat' := (hb.balanced L hbody).trans (hjump.trans hat)
    exact ⟨htest, hbody, hat, hat', hback.trans hat'⟩
  constructor
  · intro L hL
    obtain ⟨_, _, _, _, hat⟩ := hend L hL
    rw [← hat]
    exact congrArg L (by simp only [List.length_append, List.length_cons, List.length_nil]; omega)
  · intro L hL hentries
    obtain ⟨htest, hbody, hat, hat', hafter⟩ := hend L hL
    rw [List.append_assoc]
    refine targets_append.mpr ⟨ht.targets L htest hentries, hafter.trans hat.symm, ?_⟩
    exact targets_append.mpr ⟨hb.targets L hbody hentries, hat'.symm, trivial⟩

/-- As `Nested`, with jumps to an address outside of the code. -/
structure NestedTo (functions : HashMap String Nat) (endPc pc : Nat) (code : List Inst) :
    Prop where
  balanced : ∀ L, Follows L pc code → L (pc + code.length) = L pc
  targets : ∀ L, Follows L pc code → Entries L functions → L endPc = L pc → Targets L pc code

theorem NestedTo.append {endPc : Nat} {code : List Inst} (h : NestedTo functions endPc pc code)
    (h' : NestedTo functions endPc (pc + code.length) code') :
    NestedTo functions endPc pc (code ++ code') := by
  constructor
  · intro L hL
    obtain ⟨hfirst, hsecond⟩ := follows_append.mp hL
    rw [List.length_append, ← Nat.add_assoc, h'.balanced L hsecond, h.balanced L hfirst]
  · intro L hL hentries hend
    obtain ⟨hfirst, hsecond⟩ := follows_append.mp hL
    have hend' := hend.trans (h.balanced L hfirst).symm
    exact targets_append.mpr ⟨h.targets L hfirst hentries hend, h'.targets L hsecond hentries hend'⟩

theorem NestedTo.jump {endPc : Nat} (h : Nested functions pc code) :
    NestedTo functions endPc pc (code ++ [Inst.jump endPc]) := by
  constructor
  · intro L hL
    obtain ⟨hcode, hjump, _⟩ := follows_append.mp hL
    rw [← h.balanced L hcode, List.length_append]
    exact hjump
  · intro L hL hentries hend
    obtain ⟨hcode, _, _⟩ := follows_append.mp hL
    refine targets_append.mpr ⟨h.targets L hcode hentries, ?_, trivial⟩
    exact hend.trans (h.balanced L hcode).symm

variable {target : Nat}

namespace Codegen

variable {kind : String}

theorem nested_clause {endPc : Nat} {b : List Inst}
    (hb : Nested functions (clauseStart kind pc) b) :
    NestedTo functions endPc pc (clause kind pc b ++ [Inst.jump endPc]) := by
  unfold clauseStart at hb
  unfold clause
  by_cases hany : kind = "any"
  · rw [if_pos hany] at hb ⊢
    exact .jump hb
  · rw [if_neg hany] at hb ⊢
    have hend : ∀ L, Follows L pc (.pushConst (.string kind) :: .loadErrorKind :: .eqStr ::
        .jumpFalse (pc + 4 + b.length + 1) :: b ++ [Inst.jump endPc]) →
        Follows L (pc + 4) b ∧ L (pc + 3) = L pc ∧ L (pc + 4 + b.length) = L pc ∧
          L (pc + 4 + b.length + 1) = L pc := by
      intro L hL
      obtain ⟨hpush, hload, heq, hjump, hrest⟩ := hL
      obtain ⟨hbody, hback, _⟩ := follows_append.mp hrest
      have hat : L (pc + 3) = L pc := (heq.trans hload).trans hpush
      have hat' : L (pc + 4 + b.length) = L pc := ((hb.balanced L hbody).trans hjump).trans hat
      exact ⟨hbody, hat, hat', hback.trans hat'⟩
    constructor
    · intro L hL
      obtain ⟨_, _, _, hat⟩ := hend L hL
      rw [← hat]
      exact congrArg L (by simp only [List.length_append, List.length_cons, List.length_nil]; omega)
    · intro L hL hentries hout
      obtain ⟨hbody, hat, hat', hafter⟩ := hend L hL
      refine ⟨trivial, trivial, trivial, hafter.trans hat.symm, ?_⟩
      exact targets_append.mpr ⟨hb.targets L hbody hentries, hout.trans hat'.symm, trivial⟩

theorem nested_try {clauses : List (List Inst)} {endPc : Nat}
    (hend : endPc = pc + 1 + b.length + 2 + (clausesCode clauses endPc).length + 1)
    (hb : Nested functions (pc + 1) b)
    (hclauses : NestedTo functions endPc (pc + 1 + b.length + 2) (clausesCode clauses endPc)) :
    Nested functions pc (.tryEnter (pc + 1 + b.length + 2) :: b ++ .tryExit :: .jump endPc ::
      clausesCode clauses endPc ++ [Inst.rethrow]) := by
  have hall : ∀ L, Follows L pc (.tryEnter (pc + 1 + b.length + 2) :: b ++ .tryExit ::
      .jump endPc :: clausesCode clauses endPc ++ [Inst.rethrow]) →
      Follows L (pc + 1) b ∧
        Follows L (pc + 1 + b.length + 2) (clausesCode clauses endPc) ∧
        L (pc + 1 + b.length) = (pc + 1 + b.length + 2) :: L pc ∧
        L (pc + 1 + b.length + 1) = L pc ∧ L (pc + 1 + b.length + 2) = L pc ∧ L endPc = L pc := by
    intro L hL
    rw [List.append_assoc] at hL
    obtain ⟨henter, hrest⟩ := hL
    obtain ⟨hbody, hexit, hjump, hrest⟩ := follows_append.mp hrest
    obtain ⟨hcode, hrethrow, _⟩ := follows_append.mp hrest
    have hat : L (pc + 1 + b.length) = (pc + 1 + b.length + 2) :: L pc :=
      (hb.balanced L hbody).trans henter
    have hat' : L (pc + 1 + b.length + 1) = L pc := by
      rw [hexit, hat]
      rfl
    have hat'' : L (pc + 1 + b.length + 2) = L pc := hjump.trans hat'
    refine ⟨hbody, hcode, hat, hat', hat'', ?_⟩
    rw [hend]
    exact hrethrow.trans ((hclauses.balanced L hcode).trans hat'')
  constructor
  · intro L hL
    obtain ⟨_, _, _, _, _, hat⟩ := hall L hL
    rw [← hat]
    refine congrArg L ?_
    simp only [List.length_append, List.length_cons, List.length_nil]
    omega
  · intro L hL hentries
    obtain ⟨hbody, hcode, hat, hat', hdispatch, hafter⟩ := hall L hL
    rw [List.append_assoc]
    refine ⟨hdispatch, targets_append.mpr ⟨hb.targets L hbody hentries, ?_, ?_, ?_⟩⟩
    · rw [TargetAt, hat]
      simp
    · exact hafter.trans hat'.symm
    · refine targets_append.mpr ⟨?_, trivial, trivial⟩
      exact hclauses.targets L hcode hentries (hafter.trans hdispatch.symm)

variable {body : List Stmt} {condition : Expr}

variable {catches : List (String × List Stmt)}

theorem nested_compiles : Compiles (fun functions pc code _ => Nested functions pc code)
    (fun functions endPc pc code _ => NestedTo functions endPc pc code) where
  append := .append
  straight := .straight
  call := .call
  stop h := .straight (by rcases h with rfl | rfl | rfl <;> exact List.all_eq_true.mp rfl)
  ifThen := .ifThen
  ifElse := .ifElse
  loop := .loop
  noClause := ⟨fun _ _ => rfl, fun _ _ _ _ => trivial⟩
  clause := nested_clause
  clauses := .append
  tryCatch := nested_try

theorem entries_insert {name : String} (h : Entries L functions) (htarget : L target = []) :
    Entries L (functions.insert name target) := by
  refine ⟨h.1, ?_⟩
  intro name' target' hget
  rcases HashMap.insert_some hget with ⟨-, rfl⟩ | ⟨-, hold⟩
  · exact htarget
  · exact h.2 name' target' hold

theorem enterParams_functions (cg : Codegen) (params : List (String × Ty)) :
    (enterParams cg params).functions = cg.functions := by
  unfold enterParams
  generalize hstart : ({ cg with locals := .empty, nextSlot := 0 } : Codegen) = start
  have hfunctions : start.functions = cg.functions := by rw [← hstart]
  clear hstart
  induction params generalizing start with
  | nil => exact hfunctions
  | cons p params ih => exact ih _ hfunctions

theorem compileDecl_nested {d : Decl} {cg cg' : Codegen}
    (h : compileDecl d cg pc = some (code, cg')) (hL : Follows L pc code) (hpc : L pc = [])
    (hentries : Entries L cg.functions) :
    L (pc + code.length) = [] ∧ Entries L cg'.functions ∧ Targets L pc code := by
  cases d with
  | func name params ret body =>
    simp only [compileDecl, Option.bind_eq_bind, Option.bind_eq_some_iff] at h
    obtain ⟨⟨b, cg₂⟩, hb, h⟩ := h
    cases h
    obtain ⟨hfunctions, hnested⟩ := yields_stmt nested_compiles body _ _ _ _ hb
    rw [enterParams_functions] at hfunctions hnested
    rw [List.cons_append] at hL ⊢
    obtain ⟨hover, hrest⟩ := hL
    obtain ⟨hbody, hret, _⟩ := follows_append.mp hrest
    have hentry : L (pc + 1) = [] := hover.trans hpc
    have hinside : Entries L (cg.functions.insert name (pc + 1)) := entries_insert hentries hentry
    have hend : L (pc + 1 + b.length) = [] := (hnested.balanced L hbody).trans hentry
    have hafter : L (pc + 1 + b.length + 1) = [] := hret.trans hend
    refine ⟨?_, by rw [hfunctions]; exact hinside, hafter.trans hpc.symm, ?_⟩
    · rw [← hafter]
      exact congrArg L (by simp only [List.length_append, List.length_cons, List.length_nil]; omega)
    · exact targets_append.mpr ⟨hnested.targets L hbody hinside, trivial, trivial⟩
  | _ =>
    obtain ⟨hfunctions, hnested⟩ :=
      yields_decl nested_compiles (by rintro _ _ _ _ ⟨⟩) cg pc code cg' h
    rw [hfunctions]
    exact ⟨(hnested.balanced L hL).trans hpc, hentries, hnested.targets L hL hentries⟩

theorem compileDecls_nested {program : Program} {cg cg' : Codegen}
    (h : compileDecls program cg pc = some (code, cg')) (hL : Follows L pc code) (hpc : L pc = [])
    (hentries : Entries L cg.functions) : Entries L cg'.functions ∧ Targets L pc code := by
  induction program generalizing cg pc code with
  | nil =>
    cases h
    exact ⟨hentries, trivial⟩
  | cons d program ih =>
    obtain ⟨code₁, cg₁, code₂, hfirst, hsecond, rfl⟩ := andThen_eq_some h
    obtain ⟨hL₁, hL₂⟩ := follows_append.mp hL
    obtain ⟨hat, hentries₁, htargets⟩ := compileDecl_nested hfirst hL₁ hpc hentries
    obtain ⟨hentries₂, htargets'⟩ := ih hsecond hL₂ hat hentries₁
    exact ⟨hentries₂, targets_append.mpr ⟨htargets, htargets'⟩⟩

end Codegen

variable {program : List Inst}

theorem bodiesAt_succ (h : program[pc]? = some inst) :
    bodiesAt program (pc + 1) = scan (bodiesAt program pc) inst := by
  obtain ⟨hlt, hget⟩ := List.getElem?_eq_some_iff.mp h
  rw [bodiesAt, List.take_succ_eq_append_getElem hlt, List.foldl_append, hget]
  rfl

theorem follows_iff :
    Follows L pc code ↔
      ∀ i inst, code[i]? = some inst → L (pc + i + 1) = scan (L (pc + i)) inst :=
  pointwise_iff (p := fun pc inst => L (pc + 1) = scan (L pc) inst) (q := Follows L)
    (fun _ => trivial) (fun _ _ _ => Iff.rfl)

theorem targets_iff :
    Targets L pc code ↔ ∀ i inst, code[i]? = some inst → TargetAt L (pc + i) inst :=
  pointwise_iff (fun _ => trivial) (fun _ _ _ => Iff.rfl)

theorem follows_bodiesAt (program : List Inst) : Follows (bodiesAt program) 0 program := by
  rw [follows_iff]
  intro i inst hi
  rw [Nat.zero_add]
  exact bodiesAt_succ hi

theorem foldl_scan_set {i count target' count' : Nat} (h : code[i]? = some (.call target count))
    (bodies : List Nat) :
    (code.set i (.call target' count')).foldl scan bodies = code.foldl scan bodies := by
  induction code generalizing i bodies with
  | nil => rfl
  | cons inst code ih =>
    cases i with
    | zero =>
      cases h
      rfl
    | succ i => exact ih h (scan bodies inst)

theorem bodiesAt_set {i count target' count' : Nat} (h : program[i]? = some (.call target count)) :
    bodiesAt (program.set i (.call target' count')) = bodiesAt program := by
  funext pc
  unfold bodiesAt
  rw [List.take_set]
  by_cases hi : i < pc
  · exact foldl_scan_set (by rw [List.getElem?_take_of_lt hi, h]) []
  · rw [List.set_eq_of_length_le]
    rw [List.length_take]
    omega

theorem resolve_linked {functions : HashMap String Nat}
    (hentries : Entries (bodiesAt program) functions)
    (htargets : Targets (bodiesAt program) 0 program) (pending : Nat × String) :
    bodiesAt (Codegen.resolve functions program pending) = bodiesAt program ∧
      Targets (bodiesAt program) 0 (Codegen.resolve functions program pending) := by
  unfold Codegen.resolve
  cases hname : functions.get? pending.2 with
  | none => exact ⟨rfl, htargets⟩
  | some addr =>
    cases hinst : program[pending.1]? with
    | none => exact ⟨rfl, htargets⟩
    | some inst =>
      cases inst with
      | call target count =>
        refine ⟨bodiesAt_set hinst, targets_iff.mpr fun i inst hi => ?_⟩
        rw [List.getElem?_set] at hi
        by_cases hsame : pending.1 = i
        · rw [if_pos hsame] at hi
          split at hi
          · cases hi
            exact hentries.2 pending.2 addr hname
          · cases hi
        · rw [if_neg hsame] at hi
          exact targets_iff.mp htargets i inst hi
      | _ => exact ⟨rfl, htargets⟩

theorem link_linked {functions : HashMap String Nat} (pendings : List (Nat × String))
    (hentries : Entries (bodiesAt program) functions)
    (htargets : Targets (bodiesAt program) 0 program) :
    bodiesAt (pendings.foldl (Codegen.resolve functions) program) = bodiesAt program ∧
      Targets (bodiesAt program) 0 (pendings.foldl (Codegen.resolve functions) program) := by
  induction pendings generalizing program with
  | nil => exact ⟨rfl, htargets⟩
  | cons pending pendings ih =>
    obtain ⟨hbodies, hresolved⟩ := resolve_linked hentries htargets pending
    rw [← hbodies] at hentries hresolved
    obtain ⟨hbodies', hresolved'⟩ := ih hentries hresolved
    rw [hbodies] at hbodies' hresolved'
    exact ⟨hbodies', hresolved'⟩

theorem bodiesAt_append_call (program : List Inst) (target count : Nat) :
    bodiesAt (program ++ [Inst.call target count]) = bodiesAt program := by
  funext pc
  unfold bodiesAt
  rw [List.take_append, List.foldl_append]
  cases pc - program.length <;> simp [scan]

theorem enterLayouts_functions (cg : Codegen) (program : Program) :
    (cg.enterLayouts program).functions = cg.functions := by
  unfold Codegen.enterLayouts
  induction program generalizing cg with
  | nil => rfl
  | cons d program ih =>
    rw [List.foldl_cons, ih]
    cases d <;> rfl

theorem compiled_targets {program : Program} {insts : List Inst}
    (h : compileProgram program = some insts) : Targets (bodiesAt insts) 0 insts := by
  obtain ⟨analyzer, _, h⟩ := Option.bind_eq_some_iff.mp h
  simp only [Codegen.genBcode, Option.bind_eq_bind, Option.bind_eq_some_iff] at h
  obtain ⟨⟨code, cg⟩, hcode, h⟩ := h
  have hstart : Entries (bodiesAt code)
      (Codegen.enterLayouts (Codegen.ofTables analyzer.ttArena) program).functions := by
    rw [enterLayouts_functions]
    refine ⟨rfl, fun name target hget => ?_⟩
    cases hget
  obtain ⟨hentries, htargets⟩ :=
    Codegen.compileDecls_nested hcode (follows_bodiesAt code) rfl hstart
  obtain ⟨hbodies, hlinked⟩ := link_linked cg.pendingCalls hentries htargets
  cases hmain : cg.functions.get? "start" with
  | none =>
    simp only [hmain] at h
    cases h
    rw [hbodies]
    exact hlinked
  | some startAddr =>
    simp only [hmain] at h
    cases h
    rw [bodiesAt_append_call, hbodies]
    exact targets_append.mpr ⟨hlinked, hentries.2 _ _ hmain, trivial⟩

theorem bodiesAt_clauses (h : Targets (bodiesAt program) 0 program) {before rest : List Nat}
    {catchPc : Nat} (hbodies : bodiesAt program pc = before ++ catchPc :: rest) :
    bodiesAt program catchPc = rest := by
  induction pc generalizing before rest catchPc with
  | zero =>
    exfalso
    have hnil : bodiesAt program 0 = [] := rfl
    rw [hnil] at hbodies
    cases before <;> cases hbodies
  | succ pc ih =>
    cases hinst : program[pc]? with
    | none =>
      have hlen : program.length ≤ pc := List.getElem?_eq_none_iff.mp hinst
      have hsame : bodiesAt program (pc + 1) = bodiesAt program pc := by
        rw [bodiesAt, bodiesAt, List.take_of_length_le hlen, List.take_of_length_le (by omega)]
      exact ih (hsame ▸ hbodies)
    | some inst =>
      have hsucc := bodiesAt_succ hinst
      rw [hbodies] at hsucc
      have htarget := targets_iff.mp h pc inst hinst
      rw [Nat.zero_add] at htarget
      cases inst with
      | tryEnter target =>
        cases before with
        | nil =>
          simp only [scan, List.nil_append, List.cons.injEq] at hsucc
          rw [hsucc.1, hsucc.2]
          exact htarget
        | cons first before =>
          simp only [scan, List.cons_append, List.cons.injEq] at hsucc
          exact ih hsucc.2.symm
      | tryExit =>
        cases hat : bodiesAt program pc with
        | nil => exact absurd hat htarget
        | cons first bodies =>
          rw [hat] at hsucc
          have hsame : bodiesAt program pc = (first :: before) ++ catchPc :: rest := by
            rw [hat]
            exact congrArg (first :: ·) hsucc.symm
          exact ih hsame
      | _ => exact ih hsucc.symm

end Sol

end Relux
