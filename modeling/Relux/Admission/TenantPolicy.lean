import Mathlib.Data.List.Induction
import Relux.Admission.AgentGate

/-! The decisions for a tenant read its own policy file and no other, as long as no other tenant
id is sanitised to the same file name. -/

namespace Relux

namespace Admission

structure PolicyState where
  files : HashMap String String
  resolver : TenantPolicyResolver

/-- Each with the reading of the clock: a policy file is written or removed, or a call is
decided. -/
inductive PolicyOp where
  | write (now : Nat) (path : String) (content : Option String)
  | evaluate (now : Nat) (caller : VerifiedIdentity) (method : String) (tenantId : Option String)

namespace PolicyOp

def time : PolicyOp → Nat
  | write now _ _ => now
  | evaluate now _ _ _ => now

def writes (path : String) : PolicyOp → Bool
  | write _ path' _ => path' == path
  | evaluate _ _ _ _ => false

def decision (host : PolicyHost) (tenant : String) (s : PolicyState) : PolicyOp → List Decision
  | write _ _ _ => []
  | evaluate now caller method tenantId =>
    if tenantId = some tenant then
      [(s.resolver.evaluate host s.files now caller method tenantId).1]
    else []

def run (host : PolicyHost) (s : PolicyState) : PolicyOp → PolicyState
  | write _ path content =>
    { s with files := match content with
        | some text => s.files.insert path text
        | none => s.files.remove path }
  | evaluate now caller method tenantId =>
    { s with resolver := (s.resolver.evaluate host s.files now caller method tenantId).2 }

end PolicyOp

namespace PolicyState

def runs (host : PolicyHost) (s : PolicyState) (ops : List PolicyOp) : PolicyState :=
  ops.foldl (PolicyOp.run host) s

def decisions (host : PolicyHost) (tenant : String) (s : PolicyState) : List PolicyOp → List Decision
  | [] => []
  | op :: ops => op.decision host tenant s ++ (op.run host s).decisions host tenant ops

def start (global : PolicyFile) (dir : Option String) (ttl : Nat) : PolicyState :=
  ⟨.empty, (TenantPolicyResolver.new global dir ttl).withTenantIsolation true⟩

end PolicyState

def SameBut (path : String) (ops ops' : List PolicyOp) : Prop :=
  ops.filter (fun op => !op.writes path) = ops'.filter (fun op => !op.writes path)

variable {host : PolicyHost}

def FromFiles (host : PolicyHost) (start : PolicyState) (ops : List PolicyOp) (s : PolicyState) :
    Prop :=
  ∀ path readAt engine, (path, (readAt, engine)) ∈ s.resolver.cache.entries →
    ∃ before op later, ops = before ++ op :: later ∧ op.time = readAt ∧
      engine = TenantPolicyResolver.load host (start.runs host before).files path

theorem engineForTenant_cases (files : HashMap String String) (now : Nat)
    (r : TenantPolicyResolver) {tenantId : Option String} {path : String}
    (hpath : r.tenantPath tenantId = some path) :
    (∃ readAt engine, (path, (readAt, engine)) ∈ r.cache.entries ∧ now < readAt + r.ttl ∧
        (r.engineForTenant host files now tenantId).1 = engine) ∨
      (r.engineForTenant host files now tenantId).1 =
        TenantPolicyResolver.load host files path := by
  unfold TenantPolicyResolver.engineForTenant
  rw [hpath]
  dsimp only
  cases hcached : r.cached now path with
  | none => exact Or.inr rfl
  | some entry =>
    refine Or.inl ?_
    unfold TenantPolicyResolver.cached at hcached
    by_cases hzero : r.ttl = 0
    · rw [if_pos hzero] at hcached
      cases hcached
    · rw [if_neg hzero] at hcached
      obtain ⟨e, hfilter, hentry⟩ := Option.map_eq_some_iff.mp hcached
      obtain ⟨hget, hfresh⟩ := Option.filter_eq_some_iff.mp hfilter
      have hlt : now - e.1 < r.ttl := by simpa using hfresh
      refine ⟨e.1, e.2, LruCache.mem_of_get hget, by omega, hentry.symm⟩

theorem mem_engineForTenant {files : HashMap String String} {now : Nat}
    {r : TenantPolicyResolver} {tenantId : Option String} {e : String × Nat × Option PolicyFile}
    (h : e ∈ (r.engineForTenant host files now tenantId).2.cache.entries) :
    e ∈ r.cache.entries ∨ e.2.1 = now ∧ e.2.2 = TenantPolicyResolver.load host files e.1 := by
  unfold TenantPolicyResolver.engineForTenant at h
  cases hpath : r.tenantPath tenantId with
  | none =>
    rw [hpath] at h
    exact Or.inl h
  | some path =>
    rw [hpath] at h
    dsimp only at h
    by_cases hzero : r.ttl = 0
    · rw [if_pos hzero] at h
      cases hcached : r.cached now path with
      | some entry =>
        rw [hcached] at h
        exact Or.inl h
      | none =>
        rw [hcached] at h
        rw [if_pos hzero] at h
        exact Or.inl h
    · rw [if_neg hzero] at h
      cases hcached : r.cached now path with
      | some entry =>
        rw [hcached] at h
        exact Or.inl (LruCache.mem_get h)
      | none =>
        rw [hcached] at h
        rw [if_neg hzero] at h
        rcases LruCache.mem_put h with rfl | hrest
        · exact Or.inr ⟨rfl, rfl⟩
        · exact Or.inl (LruCache.mem_get hrest)

theorem evaluate_config (files : HashMap String String) (now : Nat) (r : TenantPolicyResolver)
    (caller : VerifiedIdentity) (method : String) (tenantId : Option String) :
    (r.evaluate host files now caller method tenantId).2 =
      { r with cache := (r.evaluate host files now caller method tenantId).2.cache } := by
  unfold TenantPolicyResolver.evaluate TenantPolicyResolver.engineForTenant
  by_cases hblank : (r.tenantIsolationEnabled && tenantId.all (fun s => (trim s).isEmpty)) = true
  · rw [if_pos hblank]
  · rw [if_neg hblank]
    cases r.tenantPath tenantId with
    | none => rfl
    | some path =>
      dsimp only
      cases r.cached now path <;> rfl

theorem runs_config (s : PolicyState) (ops : List PolicyOp) :
    (s.runs host ops).resolver = { s.resolver with cache := (s.runs host ops).resolver.cache } := by
  induction ops generalizing s with
  | nil => rfl
  | cons op ops ih =>
    have hrest := ih (op.run host s)
    have hone : (op.run host s).resolver =
        { s.resolver with cache := (op.run host s).resolver.cache } := by
      cases op with
      | write now path content => rfl
      | evaluate now caller method tenantId => exact evaluate_config _ _ _ _ _ _
    rw [PolicyState.runs, List.foldl_cons]
    rw [PolicyState.runs] at hrest
    rw [hrest, hone]

theorem FromFiles.step {start s : PolicyState} {ops : List PolicyOp}
    (hs : s = start.runs host ops) (h : FromFiles host start ops s) (op : PolicyOp) :
    FromFiles host start (ops ++ [op]) (op.run host s) := by
  have hold : ∀ e ∈ s.resolver.cache.entries, ∃ before op' later,
      ops ++ [op] = before ++ op' :: later ∧ op'.time = e.2.1 ∧
        e.2.2 = TenantPolicyResolver.load host (start.runs host before).files e.1 := by
    intro e he
    obtain ⟨before, op', later, hsplit, htime, hengine⟩ := h e.1 e.2.1 e.2.2 he
    exact ⟨before, op', later ++ [op], by simp [hsplit], htime, hengine⟩
  intro path readAt engine hmem
  cases op with
  | write now path' content => exact hold _ hmem
  | evaluate now caller method tenantId =>
    have hcases : (path, (readAt, engine)) ∈ s.resolver.cache.entries ∨
        readAt = now ∧ engine = TenantPolicyResolver.load host s.files path := by
      have hmem' : (path, (readAt, engine)) ∈
          (s.resolver.evaluate host s.files now caller method tenantId).2.cache.entries := hmem
      unfold TenantPolicyResolver.evaluate at hmem'
      by_cases hblank : (s.resolver.tenantIsolationEnabled &&
          tenantId.all (fun s => (trim s).isEmpty)) = true
      · rw [if_pos hblank] at hmem'
        exact Or.inl hmem'
      · rw [if_neg hblank] at hmem'
        exact mem_engineForTenant hmem'
    rcases hcases with hrest | ⟨rfl, rfl⟩
    · exact hold _ hrest
    · exact ⟨ops, _, [], rfl, rfl, by rw [hs]⟩

theorem fromFiles_runs (start : PolicyState) (hstart : start.resolver.cache.entries = [])
    (ops : List PolicyOp) : FromFiles host start ops (start.runs host ops) := by
  induction ops using List.reverseRecOn with
  | nil =>
    intro path readAt engine hmem
    have hnil : (path, (readAt, engine)) ∈ start.resolver.cache.entries := hmem
    rw [hstart] at hnil
    cases hnil
  | append_singleton ops op ih =>
    have hrun : start.runs host (ops ++ [op]) = op.run host (start.runs host ops) := by
      unfold PolicyState.runs
      rw [List.foldl_append]
      rfl
    rw [hrun]
    exact ih.step rfl op

def hide (path key : String) (v : Nat × Option PolicyFile) : Nat × Option PolicyFile :=
  if key = path then (v.1, none) else v

def TenantPolicyResolver.masked (path : String) (r : TenantPolicyResolver) : TenantPolicyResolver :=
  { r with cache := r.cache.mapVal (hide path) }

structure Alike (path : String) (s s' : PolicyState) : Prop where
  files : ∀ key, key ≠ path → s.files.get? key = s'.files.get? key
  resolver : s.resolver.masked path = s'.resolver.masked path

theorem Alike.refl (path : String) (s : PolicyState) : Alike path s s := ⟨fun _ _ => rfl, rfl⟩

variable {path : String} {s' s : PolicyState}

theorem Alike.trans {s'' : PolicyState} (h : Alike path s s') (h' : Alike path s' s'') :
    Alike path s s'' :=
  ⟨fun key hkey => (h.files key hkey).trans (h'.files key hkey), h.resolver.trans h'.resolver⟩

@[simp] theorem hide_fst (path key : String) (v : Nat × Option PolicyFile) :
    (hide path key v).1 = v.1 := by
  unfold hide
  by_cases hkey : key = path
  · rw [if_pos hkey]
  · rw [if_neg hkey]

theorem cached_masked (path : String) (r : TenantPolicyResolver) (now : Nat) (key : String) :
    (r.masked path).cached now key =
      (r.cached now key).map (fun engine => if key = path then none else engine) := by
  unfold TenantPolicyResolver.cached TenantPolicyResolver.masked
  rw [LruCache.get_mapVal]
  by_cases hzero : r.ttl = 0
  · rw [if_pos hzero, if_pos hzero]
    rfl
  · rw [if_neg hzero, if_neg hzero]
    cases (r.cache.get key).1 with
    | none => rfl
    | some e =>
      rw [Option.map_some]
      by_cases hfresh : now - e.1 < r.ttl
      · rw [Option.filter_some_pos (by simpa using hfresh),
          Option.filter_some_pos (by simpa using hfresh)]
        unfold hide
        by_cases hkey : key = path
        · simp [hkey]
        · simp [hkey]
      · rw [Option.filter_some_neg (by simpa using hfresh),
          Option.filter_some_neg (by simpa using hfresh)]
        rfl

theorem Alike.load (h : Alike path s s') {key : String} (hkey : key ≠ path) :
    TenantPolicyResolver.load host s.files key = TenantPolicyResolver.load host s'.files key := by
  unfold TenantPolicyResolver.load
  rw [h.files key hkey]

theorem engineForTenant_masked {path : String} {s s' : PolicyState} (h : Alike path s s')
    (now : Nat) (tenantId : Option String) :
    (s.resolver.engineForTenant host s.files now tenantId).2.masked path =
        (s'.resolver.engineForTenant host s'.files now tenantId).2.masked path ∧
      (s.resolver.tenantPath tenantId ≠ some path →
        (s.resolver.engineForTenant host s.files now tenantId).1 =
          (s'.resolver.engineForTenant host s'.files now tenantId).1) := by
  have hconfig := h.resolver
  have hdir := congrArg TenantPolicyResolver.dir hconfig
  change s.resolver.dir = s'.resolver.dir at hdir
  have httl := congrArg TenantPolicyResolver.ttl hconfig
  change s.resolver.ttl = s'.resolver.ttl at httl
  have hpaths : s'.resolver.tenantPath tenantId = s.resolver.tenantPath tenantId := by
    unfold TenantPolicyResolver.tenantPath
    rw [hdir]
  have hcache := congrArg TenantPolicyResolver.cache hconfig
  change s.resolver.cache.mapVal (hide path) = s'.resolver.cache.mapVal (hide path) at hcache
  unfold TenantPolicyResolver.engineForTenant
  rw [hpaths]
  cases hpath : s.resolver.tenantPath tenantId with
  | none => exact ⟨h.resolver, fun _ => rfl⟩
  | some key =>
    dsimp only
    have hcached : (s.resolver.cached now key).map (fun engine => if key = path then none else engine) =
        (s'.resolver.cached now key).map (fun engine => if key = path then none else engine) := by
      rw [← cached_masked, ← cached_masked, hconfig]
    have hlooked : (s.resolver.cache.get key).2.mapVal (hide path) =
        (s'.resolver.cache.get key).2.mapVal (hide path) := by
      have hget := LruCache.get_mapVal (hide path) s.resolver.cache key
      have hget' := LruCache.get_mapVal (hide path) s'.resolver.cache key
      rw [hcache, hget'] at hget
      exact (congrArg Prod.snd hget).symm
    have hmasked : ∀ cache cache' : LruCache String (Nat × Option PolicyFile),
        cache.mapVal (hide path) = cache'.mapVal (hide path) →
        { s.resolver with cache := cache }.masked path =
          { s'.resolver with cache := cache' }.masked path := by
      intro cache cache' heq
      show { s.resolver.masked path with cache := cache.mapVal (hide path) } =
        { s'.resolver.masked path with cache := cache'.mapVal (hide path) }
      rw [hconfig, heq]
    have hbumped : (if s.resolver.ttl = 0 then s.resolver.cache
          else (s.resolver.cache.get key).2).mapVal (hide path) =
        (if s'.resolver.ttl = 0 then s'.resolver.cache
          else (s'.resolver.cache.get key).2).mapVal (hide path) := by
      rw [← httl]
      by_cases hzero : s.resolver.ttl = 0
      · rw [if_pos hzero, if_pos hzero]
        exact hcache
      · rw [if_neg hzero, if_neg hzero]
        exact hlooked
    cases hfound : s.resolver.cached now key with
    | some engine =>
      cases hfound' : s'.resolver.cached now key with
      | some engine' =>
        rw [hfound, hfound'] at hcached
        refine ⟨hmasked _ _ hbumped, fun hne => ?_⟩
        have hkey : key ≠ path := fun heq => hne (congrArg some heq)
        simpa [hkey] using hcached
      | none =>
        rw [hfound, hfound'] at hcached
        cases hcached
    | none =>
      cases hfound' : s'.resolver.cached now key with
      | some engine' =>
        rw [hfound, hfound'] at hcached
        cases hcached
      | none =>
        refine ⟨hmasked _ _ ?_, fun hne => h.load fun heq => hne (congrArg some heq)⟩
        have hhidden : hide path key (now, TenantPolicyResolver.load host s.files key) =
            hide path key (now, TenantPolicyResolver.load host s'.files key) := by
          unfold hide
          by_cases hkey : key = path
          · rw [if_pos hkey, if_pos hkey]
          · rw [if_neg hkey, if_neg hkey, h.load hkey]
        rw [← httl] at hbumped ⊢
        by_cases hzero : s.resolver.ttl = 0
        · rw [if_pos hzero, if_pos hzero] at hbumped ⊢
          rw [if_pos hzero, if_pos hzero]
          exact hbumped
        · rw [if_neg hzero, if_neg hzero] at hbumped ⊢
          rw [if_neg hzero, if_neg hzero, ← LruCache.put_mapVal, ← LruCache.put_mapVal, hhidden,
            hlooked]

theorem evaluate_masked (h : Alike path s s') (now : Nat) (caller : VerifiedIdentity)
    (method : String) (tenantId : Option String) :
    (s.resolver.evaluate host s.files now caller method tenantId).2.masked path =
        (s'.resolver.evaluate host s'.files now caller method tenantId).2.masked path ∧
      (s.resolver.tenantPath tenantId ≠ some path →
        (s.resolver.evaluate host s.files now caller method tenantId).1 =
          (s'.resolver.evaluate host s'.files now caller method tenantId).1) := by
  have hisolation := congrArg TenantPolicyResolver.tenantIsolationEnabled h.resolver
  change s.resolver.tenantIsolationEnabled = s'.resolver.tenantIsolationEnabled at hisolation
  have hglobal := congrArg TenantPolicyResolver.global h.resolver
  change s.resolver.global = s'.resolver.global at hglobal
  obtain ⟨hresolver, hengine⟩ := @engineForTenant_masked host path s s' h now tenantId
  unfold TenantPolicyResolver.evaluate
  rw [← hisolation]
  by_cases hblank : (s.resolver.tenantIsolationEnabled &&
      tenantId.all (fun s => (trim s).isEmpty)) = true
  · rw [if_pos hblank, if_pos hblank]
    exact ⟨h.resolver, fun _ => rfl⟩
  · rw [if_neg hblank, if_neg hblank]
    refine ⟨hresolver, fun hne => ?_⟩
    dsimp only
    rw [hengine hne, hglobal]

theorem Alike.run {path : String} {s s' : PolicyState} (h : Alike path s s') (op : PolicyOp) :
    Alike path (op.run host s) (op.run host s') := by
  cases op with
  | write now path' content =>
    refine ⟨fun key hkey => ?_, h.resolver⟩
    have hsame := h.files key hkey
    cases content with
    | some text =>
      show (s.files.insert path' text).get? key = (s'.files.insert path' text).get? key
      rw [HashMap.get?_insert, HashMap.get?_insert, hsame]
    | none =>
      show (s.files.remove path').get? key = (s'.files.remove path').get? key
      rw [HashMap.get?_remove, HashMap.get?_remove, hsame]
  | evaluate now caller method tenantId =>
    exact ⟨h.files, (evaluate_masked h now caller method tenantId).1⟩

theorem Alike.write {op : PolicyOp} (h : op.writes path = true) (s : PolicyState) :
    Alike path (op.run host s) s := by
  cases op with
  | write now path' content =>
    have hpath : path' = path := by simpa [PolicyOp.writes] using h
    subst hpath
    refine ⟨fun key hkey => ?_, rfl⟩
    cases content with
    | some text =>
      show (s.files.insert path' text).get? key = s.files.get? key
      rw [HashMap.get?_insert, if_neg hkey]
    | none =>
      show (s.files.remove path').get? key = s.files.get? key
      rw [HashMap.get?_remove, if_neg hkey]
  | evaluate now caller method tenantId => cases h

def Unmoved (host : PolicyHost) (path tenant : String) (dir : Option String) : Prop :=
  ∀ s s' : PolicyState, Alike path s s' → s.resolver.tenantIsolationEnabled = true →
    s.resolver.dir = dir → ∀ now caller method,
      (s.resolver.evaluate host s.files now caller method (some tenant)).1 =
        (s'.resolver.evaluate host s'.files now caller method (some tenant)).1

variable {dir : Option String} {tenant : String}

theorem decisions_filter (hunmoved : Unmoved host path tenant dir) (h : Alike path s s')
    (hisolation : s.resolver.tenantIsolationEnabled = true) (hdir : s.resolver.dir = dir)
    (ops : List PolicyOp) :
    s.decisions host tenant ops =
      s'.decisions host tenant (ops.filter (fun op => !op.writes path)) := by
  induction ops generalizing s s' with
  | nil => rfl
  | cons op ops ih =>
    have hconfig := @runs_config host s [op]
    have hisolation' := congrArg TenantPolicyResolver.tenantIsolationEnabled hconfig
    have hdir' := congrArg TenantPolicyResolver.dir hconfig
    by_cases hwrites : op.writes path = true
    · rw [List.filter_cons_of_neg (by simp [hwrites]), PolicyState.decisions]
      have hnone : op.decision host tenant s = [] := by
        cases op with
        | write now path' content => rfl
        | evaluate now caller method tenantId => cases hwrites
      rw [hnone, List.nil_append]
      exact ih ((Alike.write hwrites s).trans h) (hisolation'.trans hisolation) (hdir'.trans hdir)
    · rw [List.filter_cons_of_pos (by simpa using hwrites), PolicyState.decisions,
        PolicyState.decisions]
      have hdecision : op.decision host tenant s = op.decision host tenant s' := by
        cases op with
        | write now path' content => rfl
        | evaluate now caller method tenantId =>
          dsimp only [PolicyOp.decision]
          by_cases hsame : tenantId = some tenant
          · rw [if_pos hsame, if_pos hsame, hsame, hunmoved s s' h hisolation hdir]
          · rw [if_neg hsame, if_neg hsame]
      rw [hdecision, ih (h.run op) (hisolation'.trans hisolation) (hdir'.trans hdir)]

variable {global : PolicyFile} {ttl : Nat}

theorem decisions_sameBut (hunmoved : Unmoved host path tenant dir) {ops ops' : List PolicyOp}
    (h : SameBut path ops ops') :
    (PolicyState.start global dir ttl).decisions host tenant ops =
      (PolicyState.start global dir ttl).decisions host tenant ops' := by
  rw [decisions_filter hunmoved (Alike.refl path _) rfl rfl ops,
    decisions_filter hunmoved (Alike.refl path _) rfl rfl ops', h]

theorem unmoved (h : (trim tenant).isEmpty = true ∨
      dir.map (fun dir => dir ++ "/" ++ sanitiseTenantId (some tenant) ++ ".policy.toml") ≠
        some path) : Unmoved host path tenant dir := by
  intro s s' halike hisolation hdir now caller method
  rcases h with hblank | hpath
  · have hisolation' := congrArg TenantPolicyResolver.tenantIsolationEnabled halike.resolver
    change s.resolver.tenantIsolationEnabled = s'.resolver.tenantIsolationEnabled at hisolation'
    unfold TenantPolicyResolver.evaluate
    rw [← hisolation', hisolation]
    simp [hblank]
  · refine (evaluate_masked halike now caller method (some tenant)).2 ?_
    unfold TenantPolicyResolver.tenantPath
    rw [hdir]
    exact hpath

theorem path_injective {dir a b : String}
    (h : dir ++ "/" ++ a ++ ".policy.toml" = dir ++ "/" ++ b ++ ".policy.toml") : a = b := by
  have hlist := congrArg String.toList h
  simp only [String.toList_append] at hlist
  exact String.toList_inj.mp (List.append_cancel_left (List.append_cancel_right hlist))

/-- The engine in a file as that was at a moment of the run less than `ttl` ago, or is now. -/
def ReadRecently (host : PolicyHost) (start : PolicyState) (ops : List PolicyOp) (now : Nat)
    (path : String) (engine : Option PolicyFile) : Prop :=
  ∃ before later, ops = before ++ later ∧
    (later = [] ∨ ∃ op ∈ later.head?, now < op.time + start.resolver.ttl) ∧
    engine = TenantPolicyResolver.load host (start.runs host before).files path

/-- A call for a tenant is decided by the engine in its own file, and by the global one when
there is none; for a blank tenant it is denied. -/
def DecidedByOwnFile (host : PolicyHost) (start : PolicyState) (tenant : String) : Prop :=
  ∀ ops now caller method, ∃ engine : Option PolicyFile,
    ((start.runs host ops).resolver.evaluate host (start.runs host ops).files now caller method
        (some tenant)).1 =
      (if (trim tenant).isEmpty then .deny "tenant_id required in multi-tenant mode" none
        else (engine.getD start.resolver.global).evaluate host caller method) ∧
    (start.resolver.tenantPath (some tenant) = none → engine = none) ∧
    ∀ path, start.resolver.tenantPath (some tenant) = some path →
      ReadRecently host start ops now path engine

theorem decided_by_own_file (host : PolicyHost) (global : PolicyFile) (dir : Option String)
    (ttl : Nat) (tenant : String) :
    DecidedByOwnFile host (PolicyState.start global dir ttl) tenant := by
  intro ops now caller method
  generalize hstart : PolicyState.start global dir ttl = start
  have hisolation : start.resolver.tenantIsolationEnabled = true := by rw [← hstart]; rfl
  have hempty : start.resolver.cache.entries = [] := by rw [← hstart]; rfl
  have hconfig := @runs_config host start ops
  have hfrom := @fromFiles_runs host start hempty ops
  generalize hs : start.runs host ops = s at hconfig hfrom
  have hpaths : s.resolver.tenantPath (some tenant) = start.resolver.tenantPath (some tenant) := by
    rw [hconfig]
    rfl
  have hglobal := congrArg TenantPolicyResolver.global hconfig
  have hisolation' := congrArg TenantPolicyResolver.tenantIsolationEnabled hconfig
  have httl := congrArg TenantPolicyResolver.ttl hconfig
  have hnow : ∀ path, ReadRecently host start ops now path
      (TenantPolicyResolver.load host s.files path) := fun path =>
    ⟨ops, [], (List.append_nil ops).symm, Or.inl rfl, by rw [hs]⟩
  unfold TenantPolicyResolver.evaluate
  rw [hisolation', hisolation]
  by_cases hblank : (trim tenant).isEmpty = true
  · refine ⟨(s.resolver.tenantPath (some tenant)).bind
      (TenantPolicyResolver.load host s.files), by simp [hblank], fun hnone => ?_, fun path hpath => ?_⟩
    · rw [hpaths, hnone]
      rfl
    · rw [hpaths, hpath]
      exact hnow path
  · refine ⟨(s.resolver.engineForTenant host s.files now (some tenant)).1, ?_, fun hnone => ?_,
      fun path hpath => ?_⟩
    · simp [hblank, hglobal]
    · unfold TenantPolicyResolver.engineForTenant
      rw [hpaths, hnone]
    · rcases @engineForTenant_cases host s.files now s.resolver _ _ (hpaths.trans hpath) with
        ⟨readAt, engine, hmem, hfresh, hengine⟩ | hload
      · obtain ⟨before, op, later, hsplit, htime, hread⟩ := hfrom path readAt engine hmem
        refine ⟨before, op :: later, hsplit, Or.inr ⟨op, rfl, ?_⟩, hengine.trans hread⟩
        rw [htime, ← httl]
        exact hfresh
      · rw [hload]
        exact hnow path

theorem decisions_write
    (hpath : (PolicyState.start global dir ttl).resolver.tenantPath (some tenant) = some path)
    (hblank : (trim tenant).isEmpty = false) (text : String) (caller : VerifiedIdentity)
    (method : String) :
    (PolicyState.start global dir ttl).decisions host tenant
        [.write 0 path (some text), .evaluate 0 caller method (some tenant)] =
      [((host.parseToml text).getD global).evaluate host caller method] := by
  generalize hwritten : PolicyOp.run host (PolicyState.start global dir ttl)
    (.write 0 path (some text)) = s
  have hresolver : s.resolver = (PolicyState.start global dir ttl).resolver := by rw [← hwritten]; rfl
  have hload : TenantPolicyResolver.load host s.files path = host.parseToml text := by
    rw [← hwritten]
    show (HashMap.get? (HashMap.insert _ path text) path).bind host.parseToml = _
    rw [HashMap.get?_insert, if_pos rfl]
    rfl
  have hcached : s.resolver.cached 0 path = none := by
    rw [hresolver]
    unfold TenantPolicyResolver.cached
    by_cases hzero : (PolicyState.start global dir ttl).resolver.ttl = 0
    · rw [if_pos hzero]
    · rw [if_neg hzero]
      rfl
  have hengine : (s.resolver.engineForTenant host s.files 0 (some tenant)).1 =
      host.parseToml text := by
    unfold TenantPolicyResolver.engineForTenant
    rw [hresolver, hpath, ← hresolver]
    dsimp only
    rw [hcached]
    exact hload
  have hdecision : (s.resolver.evaluate host s.files 0 caller method (some tenant)).1 =
      ((host.parseToml text).getD global).evaluate host caller method := by
    unfold TenantPolicyResolver.evaluate
    have hnot : ¬ (s.resolver.tenantIsolationEnabled &&
        (some tenant).all (fun s => (trim s).isEmpty)) = true := by simp [hblank]
    rw [if_neg hnot]
    dsimp only
    rw [hengine, hresolver]
    rfl
  rw [PolicyState.decisions, PolicyState.decisions, PolicyState.decisions, hwritten]
  dsimp only [PolicyOp.decision]
  rw [if_pos rfl, hdecision]
  rfl

def openPolicyText : String := "[[rules]]\nname = \"open\"\nmethod = \"m\"\n"

def openPolicy : PolicyFile := ⟨[], [⟨"open", "m", []⟩]⟩

/-- Tenants are decided by what their own files said recently; and the file of one decides nothing
for another exactly when there is no policy directory, the other is blank, or their ids are not
sanitised to the same name. -/
theorem tenant_isolation_iff (host : PolicyHost) (hempty : host.parseToml "" = some ⟨[], []⟩)
    (hopen : host.parseToml openPolicyText = some openPolicy) (global : PolicyFile)
    (dir : Option String) (ttl : Nat) (tenant other : String) :
    let start := PolicyState.start global dir ttl
    DecidedByOwnFile host start other ∧
      ((∀ path, start.resolver.tenantPath (some tenant) = some path → ∀ ops ops',
          SameBut path ops ops' →
          start.decisions host other ops = start.decisions host other ops') ↔
        dir = none ∨ (trim other).isEmpty = true ∨
          sanitiseTenantId (some tenant) ≠ sanitiseTenantId (some other)) := by
  intro start
  refine ⟨decided_by_own_file host global dir ttl other, ?_, ?_⟩
  · intro hall
    cases hdir : dir with
    | none => exact Or.inl rfl
    | some d =>
      refine Or.inr ?_
      by_contra hnot
      rw [not_or, not_not] at hnot
      obtain ⟨hblank, hsame⟩ := hnot
      have hpath : start.resolver.tenantPath (some other) =
          some (d ++ "/" ++ sanitiseTenantId (some other) ++ ".policy.toml") := by
        subst hdir
        rfl
      have hpath' : start.resolver.tenantPath (some tenant) =
          some (d ++ "/" ++ sanitiseTenantId (some other) ++ ".policy.toml") := by
        rw [← hsame]
        subst hdir
        rfl
      have hfalse : (trim other).isEmpty = false := by simpa using hblank
      generalize d ++ "/" ++ sanitiseTenantId (some other) ++ ".policy.toml" = path at hpath hpath'
      have hagree := hall path hpath'
        [.write 0 path (some openPolicyText), .evaluate 0 ⟨"", "", [], ""⟩ "m" (some other)]
        [.write 0 path (some ""), .evaluate 0 ⟨"", "", [], ""⟩ "m" (some other)]
        (by simp [SameBut, PolicyOp.writes])
      rw [decisions_write hpath hfalse, decisions_write hpath hfalse, hopen, hempty] at hagree
      cases hagree
  · intro hcondition path hpath ops ops' hbut
    refine decisions_sameBut (unmoved ?_) hbut
    rcases hcondition with rfl | hblank | hne
    · cases hpath
    · exact Or.inl hblank
    · refine Or.inr fun heq => hne ?_
      cases dir with
      | none => cases hpath
      | some d => exact (path_injective (Option.some.inj (heq.trans hpath.symm))).symm

def twoFileHost : PolicyHost where
  parseToml text :=
    if text = "" then some ⟨[], []⟩
    else if text = openPolicyText then some openPolicy
    else none
  debugGroups _ := "[]"

theorem acme_isolated :
    let start := PolicyState.start ⟨[], []⟩ (some "policies") 60
    DecidedByOwnFile twoFileHost start "globex" ∧
      ((∀ path, start.resolver.tenantPath (some "acme") = some path → ∀ ops ops',
          SameBut path ops ops' →
          start.decisions twoFileHost "globex" ops = start.decisions twoFileHost "globex" ops') ↔
        some "policies" = none ∨ (trim "globex").isEmpty = true ∨
          sanitiseTenantId (some "acme") ≠ sanitiseTenantId (some "globex")) :=
  tenant_isolation_iff twoFileHost (by decide +kernel) (by decide +kernel) ⟨[], []⟩ (some "policies")
    60 "acme" "globex"

/-- The tenants `a-b` and `a_b` have one file. -/
theorem one_file_for_two :
    let start := PolicyState.start ⟨[], []⟩ (some "policies") 60
    start.resolver.tenantPath (some "a-b") = some "policies/a_b.policy.toml" ∧
      ∃ ops ops', SameBut "policies/a_b.policy.toml" ops ops' ∧
        start.decisions twoFileHost "a_b" ops = [.allow "open"] ∧
        start.decisions twoFileHost "a_b" ops' ≠ [.allow "open"] := by
  intro start
  refine ⟨by decide +kernel,
    [.write 0 "policies/a_b.policy.toml" (some openPolicyText),
      .evaluate 0 ⟨"", "", [], ""⟩ "m" (some "a_b")],
    [.evaluate 0 ⟨"", "", [], ""⟩ "m" (some "a_b")], by simp [SameBut, PolicyOp.writes],
    by decide +kernel, by decide +kernel⟩

end Admission

end Relux
