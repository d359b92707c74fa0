import Mathlib.Algebra.Group.Nat.Defs
import Relux.Sol.Codegen
import Relux.Sol.Heap

/-! The maps of the flow language as finite maps: what each of their operations does to the keys
and to the values, at any later time of a run. -/

namespace Relux

namespace Sol

def keysOf (pairs : List (String × Word)) : List String := pairs.map Prod.fst

theorem valueOf_cons (p : String × Word) (pairs : List (String × Word)) (key : String) :
    valueOf (p :: pairs) key = if p.1 = key then some p.2 else valueOf pairs key := by
  unfold valueOf
  by_cases h : p.1 = key
  · simp [h]
  · have hb : (p.1 == key) = false := by simpa using h
    simp [hb, h]

theorem valueOf_setValue (pairs : List (String × Word)) (key : String) (val : Word)
    (key' : String) :
    valueOf (setValue key val pairs) key' =
      if key = key' then some val else valueOf pairs key' := by
  induction pairs with
  | nil => rw [setValue, valueOf_cons]
  | cons p pairs ih =>
    rw [setValue]
    by_cases hp : p.1 = key
    · rw [if_pos hp, valueOf_cons, valueOf_cons, hp]
      split <;> rfl
    · rw [if_neg hp, valueOf_cons, ih, valueOf_cons]
      by_cases hk : key = key'
      · rw [if_pos hk, if_pos hk, if_neg (fun h => hp (h.trans hk.symm))]
      · rw [if_neg hk, if_neg hk]

theorem keysOf_setValue (pairs : List (String × Word)) (key : String) (val : Word) :
    keysOf (setValue key val pairs) =
      if key ∈ keysOf pairs then keysOf pairs else keysOf pairs ++ [key] := by
  unfold keysOf
  induction pairs with
  | nil => rfl
  | cons p pairs ih =>
    rw [setValue]
    by_cases hp : p.1 = key
    · rw [if_pos hp, if_pos (by simp [hp]), List.map_cons, List.map_cons, hp]
    · rw [if_neg hp, List.map_cons, ih, List.map_cons]
      by_cases hk : key ∈ pairs.map Prod.fst
      · rw [if_pos hk, if_pos (List.mem_cons_of_mem _ hk)]
      · have hnot : key ∉ p.1 :: pairs.map Prod.fst := by
          rw [List.mem_cons, not_or]
          exact ⟨fun h => hp h.symm, hk⟩
        rw [if_neg hk, if_neg hnot, List.cons_append]

def removeKey (key : String) (pairs : List (String × Word)) : List (String × Word) :=
  pairs.filter (fun p => p.1 != key)

theorem keysOf_removeKey (pairs : List (String × Word)) (key : String) :
    keysOf (removeKey key pairs) = (keysOf pairs).filter (fun k => k != key) := by
  unfold keysOf removeKey
  rw [List.filter_map]
  rfl

variable {pairs : List (String × Word)}

theorem nodup_setValue (h : (keysOf pairs).Nodup) (key : String) (val : Word) :
    (keysOf (setValue key val pairs)).Nodup := by
  rw [keysOf_setValue]
  split
  · exact h
  next hkey =>
    rw [List.nodup_append]
    refine ⟨h, List.nodup_singleton key, fun k hk k' hk' => ?_⟩
    rw [List.mem_singleton.mp hk']
    rintro rfl
    exact hkey hk

theorem nodup_removeKey (h : (keysOf pairs).Nodup) (key : String) :
    (keysOf (removeKey key pairs)).Nodup := by
  rw [keysOf_removeKey]
  exact h.filter _

theorem length_removeKey (h : (keysOf pairs).Nodup) (key : String) :
    (removeKey key pairs).length =
      if key ∈ keysOf pairs then pairs.length - 1 else pairs.length := by
  have hlen : ∀ ps : List (String × Word), ps.length = (keysOf ps).length := by
    intro ps
    rw [keysOf, List.length_map]
  rw [hlen, hlen pairs, keysOf_removeKey, ← h.erase_eq_filter]
  split
  next hkey => exact List.length_erase_of_mem hkey
  next hkey => rw [List.erase_of_not_mem hkey]

theorem not_mem_removeKey (pairs : List (String × Word)) (key : String) :
    key ∉ keysOf (removeKey key pairs) := by
  rw [keysOf_removeKey, List.mem_filter]
  simp

namespace VM

def operate (vm : VM) (op : VM → VM) (args : List Word) : Word × VM :=
  (op { vm with stack := vm.stack ++ args }).pop

variable {host : Host} {vm : VM}

theorem pop_append (vm : VM) (rest : List Word) (v : Word) :
    ({ vm with stack := rest ++ [v] } : VM).pop = (v, { vm with stack := rest }) := by
  unfold pop
  simp

theorem pop_push (vm : VM) (v : Word) : (vm.push v).pop = (v, vm) := pop_append vm vm.stack v

theorem pop_allocate (vm : VM) (o : HeapObject) : (vm.allocate o).pop =
    (BitVec.ofNat 64 vm.heap.length, { vm with heap := vm.heap ++ [o] }) :=
  pop_append { vm with heap := vm.heap ++ [o] } vm.stack _

theorem popped_one (vm : VM) (a : Word) :
    ({ vm with stack := vm.stack ++ [a] } : VM).pop = (a, vm) :=
  pop_append vm vm.stack a

theorem popped_two (vm : VM) (a b : Word) :
    ({ vm with stack := vm.stack ++ [a, b] } : VM).pop =
      (b, { vm with stack := vm.stack ++ [a] }) := by
  rw [show vm.stack ++ [a, b] = (vm.stack ++ [a]) ++ [b] by simp]
  exact pop_append vm (vm.stack ++ [a]) b

theorem popped_three (vm : VM) (a b c : Word) :
    ({ vm with stack := vm.stack ++ [a, b, c] } : VM).pop =
      (c, { vm with stack := vm.stack ++ [a, b] }) := by
  rw [show vm.stack ++ [a, b, c] = (vm.stack ++ [a, b]) ++ [c] by simp]
  exact pop_append vm (vm.stack ++ [a, b]) c

theorem operate_mapGet (vm : VM) (m k : Word) : vm.operate mapGet [m, k] =
    match (vm.pairs? m).bind (valueOf · (vm.textOrEmpty k)) with
    | some val => (val, vm)
    | none =>
      (BitVec.ofNat 64 vm.heap.length, { vm with heap := vm.heap ++ [HeapObject.string ""] }) := by
  unfold operate mapGet
  simp only [popped_two, popped_one]
  cases (vm.pairs? m).bind (valueOf · (vm.textOrEmpty k)) with
  | some val => exact pop_push vm val
  | none => exact pop_allocate vm _

theorem operate_mapSet (vm : VM) (m k v : Word) : vm.operate mapSet [m, k, v] =
    (BitVec.ofNat 64 vm.heap.length, { vm with
      heap := vm.heap ++
        [HeapObject.map (setValue (vm.textOrEmpty k) v ((vm.pairs? m).getD []))] }) := by
  unfold operate mapSet
  simp only [popped_three, popped_two, popped_one]
  exact pop_allocate vm _

theorem operate_mapHas (vm : VM) (m k : Word) : vm.operate mapHas [m, k] =
    (ofBool (((vm.pairs? m).getD []).any (fun p => p.1 == vm.textOrEmpty k)), vm) := by
  unfold operate mapHas
  simp only [popped_two, popped_one]
  exact pop_push vm _

theorem operate_mapLen (vm : VM) (m : Word) : vm.operate mapLen [m] =
    (BitVec.ofNat 64 ((vm.pairs? m).getD []).length, vm) := by
  unfold operate mapLen
  simp only [popped_one]
  exact pop_push vm _

theorem operate_mapDel (vm : VM) (m k : Word) : vm.operate mapDel [m, k] =
    (BitVec.ofNat 64 vm.heap.length, { vm with
      heap := vm.heap ++
        [HeapObject.map (removeKey (vm.textOrEmpty k) ((vm.pairs? m).getD []))] }) := by
  unfold operate mapDel
  simp only [popped_two, popped_one]
  exact pop_allocate vm _

theorem operate_mapKeys (vm : VM) (m : Word) : vm.operate mapKeys [m] =
    (vm.allocateTexts (keysOf ((vm.pairs? m).getD []))).pop := by
  unfold operate mapKeys
  simp only [popped_one]
  rfl

variable {vm' : VM} {r : Word} {s : String}

theorem text?_later (h : Later vm vm') (hs : vm.text? r = some s) :
    vm'.text? r = some s := by
  unfold text? at hs ⊢
  split at hs
  next s' hold =>
    rw [h _ _ rfl hold]
    exact hs
  · cases hs

theorem pairs?_later (h : Later vm vm') (hpairs : vm.pairs? r = some pairs) :
    vm'.pairs? r = some pairs := by
  unfold pairs? at hpairs ⊢
  split at hpairs
  next pairs' hold =>
    rw [h _ _ rfl hold]
    exact hpairs
  · cases hpairs

theorem toNat_ofNat_of_lt {n : Nat} (h : n < 2 ^ 64) : (BitVec.ofNat 64 n).toNat = n := by
  rw [BitVec.toNat_ofNat, Nat.mod_eq_of_lt h]

theorem pairs?_new (hroom : vm.heap.length < 2 ^ 64) (pairs : List (String × Word)) :
    ({ vm with heap := vm.heap ++ [HeapObject.map pairs] } : VM).pairs?
      (BitVec.ofNat 64 vm.heap.length) = some pairs := by
  unfold pairs?
  simp [toNat_ofNat_of_lt hroom]

theorem any_eq_decide (pairs : List (String × Word)) (key : String) :
    pairs.any (fun p => p.1 == key) = decide (key ∈ keysOf pairs) := by
  rw [Bool.eq_iff_iff, List.any_eq_true, decide_eq_true_iff, keysOf, List.mem_map]
  simp only [beq_iff_eq]

/-- The map operations of a machine are those of a finite map that keeps its keys in the order in
which they were inserted. The machine has room for the references of the new objects; a result
may be used at any later time. -/
structure FiniteMaps (vm : VM) : Prop where
  distinct : ∀ pairs, .map pairs ∈ vm.heap → (keysOf pairs).Nodup
  set : ∀ m k v pairs key, vm.pairs? m = some pairs → vm.text? k = some key →
    vm.heap.length < 2 ^ 64 → ∀ m' vm', vm.operate mapSet [m, k, v] = (m', vm') →
      (vm'.pairs? m').map keysOf =
        some (if key ∈ keysOf pairs then keysOf pairs else keysOf pairs ++ [key]) ∧
      ∀ vm₂, Later vm' vm₂ → (vm₂.operate mapGet [m', k]).1 = v ∧
        ∀ k' key', vm₂.text? k' = some key' → key' ≠ key →
          vm₂.operate mapGet [m', k'] = vm₂.operate mapGet [m, k']
  del : ∀ m k pairs key, vm.pairs? m = some pairs → vm.text? k = some key →
    vm.heap.length < 2 ^ 64 → ∀ m' vm', vm.operate mapDel [m, k] = (m', vm') →
      (vm'.pairs? m').map keysOf = some ((keysOf pairs).filter (fun key' => key' != key)) ∧
      ∀ vm₂, Later vm' vm₂ → (vm₂.operate mapHas [m', k]).1 = 0 ∧
        (vm₂.operate mapLen [m']).1 =
          if (vm₂.operate mapHas [m, k]).1 = 1 then (vm₂.operate mapLen [m]).1 - 1
          else (vm₂.operate mapLen [m]).1
  keys : ∀ m pairs, vm.pairs? m = some pairs → vm.heap.length + pairs.length < 2 ^ 64 →
    ∀ ks vm', vm.operate mapKeys [m] = (ks, vm') →
      (∃ refs, vm'.listItems? ks = some refs ∧ refs.map vm'.text? = (keysOf pairs).map some) ∧
        (keysOf pairs).Nodup
  frame : (∀ m k v, vm.heap <+: (vm.operate mapSet [m, k, v]).2.heap) ∧
    (∀ m, (vm.operate mapLen [m]).2 = vm ∧ vm.heap <+: (vm.operate mapKeys [m]).2.heap) ∧
    ∀ m k, vm.heap <+: (vm.operate mapGet [m, k]).2.heap ∧ (vm.operate mapHas [m, k]).2 = vm ∧
      vm.heap <+: (vm.operate mapDel [m, k]).2.heap

def DistinctKeys (vm : VM) : Prop := ∀ pairs, .map pairs ∈ vm.heap → (keysOf pairs).Nodup

theorem textOrEmpty_of_text? (h : vm.text? r = some s) : vm.textOrEmpty r = s := by
  rw [textOrEmpty, h]
  rfl

variable {m : Word} {key : String} {m' : Word}

theorem mapSet_laws {k v : Word} (hm : vm.pairs? m = some pairs)
    (hk : vm.text? k = some key) (hroom : vm.heap.length < 2 ^ 64)
    (h : vm.operate mapSet [m, k, v] = (m', vm')) :
    (vm'.pairs? m').map keysOf =
        some (if key ∈ keysOf pairs then keysOf pairs else keysOf pairs ++ [key]) ∧
      ∀ vm₂, Later vm' vm₂ → (vm₂.operate mapGet [m', k]).1 = v ∧
        ∀ k' key', vm₂.text? k' = some key' → key' ≠ key →
          vm₂.operate mapGet [m', k'] = vm₂.operate mapGet [m, k'] := by
  rw [operate_mapSet, hm, textOrEmpty_of_text? hk, Option.getD_some] at h
  obtain ⟨rfl, rfl⟩ := Prod.mk.inj h
  have hnew := pairs?_new hroom (setValue key v pairs)
  have hgrown : Later vm { vm with heap := vm.heap ++ [HeapObject.map (setValue key v pairs)] } :=
    later_of_prefix ⟨_, rfl⟩
  refine ⟨by rw [hnew, Option.map_some, keysOf_setValue], fun vm₂ hlater => ⟨?_, ?_⟩⟩
  · rw [operate_mapGet, pairs?_later hlater hnew,
      textOrEmpty_of_text? (text?_later (hgrown.trans hlater) hk), Option.bind_some,
      valueOf_setValue, if_pos rfl]
  · intro k' key' hk' hne
    rw [operate_mapGet, operate_mapGet, pairs?_later hlater hnew,
      pairs?_later (hgrown.trans hlater) hm, textOrEmpty_of_text? hk', Option.bind_some,
      Option.bind_some, valueOf_setValue, if_neg hne.symm]

theorem ofBool_eq_one {b : Bool} : ofBool b = 1 ↔ b = true := by cases b <;> decide

theorem mapDel_laws {k : Word} (hdistinct : (keysOf pairs).Nodup)
    (hm : vm.pairs? m = some pairs) (hk : vm.text? k = some key) (hroom : vm.heap.length < 2 ^ 64)
    (h : vm.operate mapDel [m, k] = (m', vm')) :
    (vm'.pairs? m').map keysOf = some ((keysOf pairs).filter (fun key' => key' != key)) ∧
      ∀ vm₂, Later vm' vm₂ → (vm₂.operate mapHas [m', k]).1 = 0 ∧
        (vm₂.operate mapLen [m']).1 =
          if (vm₂.operate mapHas [m, k]).1 = 1 then (vm₂.operate mapLen [m]).1 - 1
          else (vm₂.operate mapLen [m]).1 := by
  rw [operate_mapDel, hm, textOrEmpty_of_text? hk, Option.getD_some] at h
  obtain ⟨rfl, rfl⟩ := Prod.mk.inj h
  have hnew := pairs?_new hroom (removeKey key pairs)
  have hgrown : Later vm { vm with heap := vm.heap ++ [HeapObject.map (removeKey key pairs)] } :=
    later_of_prefix ⟨_, rfl⟩
  refine ⟨by rw [hnew, Option.map_some, keysOf_removeKey], fun vm₂ hlater => ?_⟩
  have hm₂ := pairs?_later (hgrown.trans hlater) hm
  have hk₂ := textOrEmpty_of_text? (text?_later (hgrown.trans hlater) hk)
  have hnew₂ := pairs?_later hlater hnew
  simp only [operate_mapHas, operate_mapLen, hm₂, hk₂, hnew₂, Option.getD_some, any_eq_decide,
    ofBool_eq_one, decide_eq_true_iff]
  refine ⟨?_, ?_⟩
  · rw [decide_eq_false (not_mem_removeKey pairs key)]
    rfl
  · rw [length_removeKey hdistinct]
    by_cases hkey : key ∈ keysOf pairs
    · have hpos : 0 < pairs.length := by
        exact List.length_pos_of_mem (List.mem_map.mp hkey).choose_spec.1
      obtain ⟨n, hn⟩ : ∃ n, pairs.length = n + 1 := ⟨pairs.length - 1, by omega⟩
      rw [if_pos hkey, if_pos hkey, hn, Nat.add_sub_cancel, BitVec.ofNat_add]
      exact (BitVec.add_sub_cancel _ _).symm
    · rw [if_neg hkey, if_neg hkey]

theorem mapKeys_laws (hm : vm.pairs? m = some pairs)
    (hroom : vm.heap.length + pairs.length < 2 ^ 64) {ks : Word}
    (h : vm.operate mapKeys [m] = (ks, vm')) :
    ∃ refs, vm'.listItems? ks = some refs ∧ refs.map vm'.text? = (keysOf pairs).map some := by
  have hlen : (keysOf pairs).length = pairs.length := List.length_map _
  rw [operate_mapKeys, hm, Option.getD_some, allocateTexts, pop_allocate] at h
  obtain ⟨rfl, rfl⟩ := Prod.mk.inj h
  have hks : (vm.heap ++ (keysOf pairs).map HeapObject.string).length < 2 ^ 64 := by
    rw [List.length_append, List.length_map, hlen]
    exact hroom
  refine ⟨(List.range (keysOf pairs).length).map (fun i => BitVec.ofNat 64 (vm.heap.length + i)),
    ?_, List.ext_getElem (by simp) (fun i hi _ => ?_)⟩
  · unfold listItems?
    simp only [toNat_ofNat_of_lt hks]
    simp
  · rw [List.length_map, List.length_map, List.length_range] at hi
    have href : vm.heap.length + i < 2 ^ 64 := by omega
    have htext : i < ((keysOf pairs).map HeapObject.string).length := by rwa [List.length_map]
    simp only [List.getElem_map, List.getElem_range]
    unfold text?
    rw [toNat_ofNat_of_lt href, List.append_assoc, List.getElem?_append_right (by omega),
      Nat.add_sub_cancel_left, List.getElem?_append_left htext, List.getElem?_map,
      List.getElem?_eq_getElem hi]
    rfl

theorem allocateTexts_prefix (vm : VM) (texts : List String) :
    vm.heap <+: (vm.allocateTexts texts).pop.2.heap := by
  rw [pop_heap, allocateTexts, allocate_heap, List.append_assoc]
  exact List.prefix_append _ _

theorem finiteMaps_iff : FiniteMaps vm ↔ DistinctKeys vm := by
  constructor
  · intro h
    exact h.distinct
  · intro h
    have hdistinct : ∀ m pairs, vm.pairs? m = some pairs → (keysOf pairs).Nodup := by
      intro m pairs hm
      have hmem := pairs?_getD_mem vm m
      rw [hm, Option.getD_some] at hmem
      rcases hmem with rfl | hmem
      · exact List.nodup_nil
      · exact h pairs hmem
    refine ⟨h, ?_, ?_, ?_, ?_, ?_, ?_⟩
    · intro m k v pairs key hm hk hroom m' vm' hset
      exact mapSet_laws hm hk hroom hset
    · intro m k pairs key hm hk hroom m' vm' hdel
      exact mapDel_laws (hdistinct m pairs hm) hm hk hroom hdel
    · intro m pairs hm hroom ks vm' hkeys
      exact ⟨mapKeys_laws hm hroom hkeys, hdistinct m pairs hm⟩
    · intro m k v
      rw [operate_mapSet]
      exact List.prefix_append _ _
    · intro m
      rw [operate_mapLen, operate_mapKeys]
      exact ⟨rfl, allocateTexts_prefix vm _⟩
    · intro m k
      rw [operate_mapGet, operate_mapHas, operate_mapDel]
      refine ⟨?_, rfl, List.prefix_append _ _⟩
      split
      · exact List.prefix_rfl
      · exact List.prefix_append _ _

def LiteralDistinct (vm : VM) : Prop :=
  ∀ n, vm.done = false → vm.fuel ≠ 0 → vm.program[vm.instPtr]? = some (.pushMap n) →
    n ≤ min vm.tick.fuel ALLOC_CEILING → (keysOf (vm.tick.popPairs n).1).Nodup

theorem HeapChange.distinct {inst : Inst} (h : HeapChange vm inst vm'.heap)
    (hdistinct : DistinctKeys vm) (hliteral : ∀ n, inst = .pushMap n →
      n ≤ min vm.fuel ALLOC_CEILING → (keysOf (vm.popPairs n).1).Nodup) : DistinctKeys vm' := by
  have hnew : ∀ new, (keysOf new).Nodup → vm'.heap = vm.heap ++ [HeapObject.map new] →
      DistinctKeys vm' := by
    intro new hnodup hheap pairs hmem
    rw [hheap, List.mem_append, List.mem_singleton] at hmem
    rcases hmem with hmem | hmem
    · exact hdistinct pairs hmem
    · cases hmem
      exact hnodup
  have hfrom : ∀ pairs, pairs = [] ∨ .map pairs ∈ vm.heap → (keysOf pairs).Nodup := by
    rintro pairs (rfl | hmem)
    · exact List.nodup_nil
    · exact hdistinct pairs hmem
  generalize hheap : vm'.heap = heap at h
  cases h with
  | grew objects hobjects =>
    intro pairs hmem
    rw [hheap, List.mem_append] at hmem
    rcases hmem with hmem | hmem
    · exact hdistinct pairs hmem
    · cases hobjects _ hmem
  | updated i o o' hold ho ho' =>
    intro pairs hmem
    rw [hheap] at hmem
    rcases List.mem_or_eq_of_mem_set hmem with hmem | rfl
    · exact hdistinct pairs hmem
    · cases ho'
  | literal n hn => exact hnew _ (hliteral n rfl hn) hheap
  | inserted pairs key val hpairs =>
    exact hnew _ (nodup_setValue (hfrom pairs hpairs) key val) hheap
  | removed pairs key hpairs => exact hnew _ (nodup_removeKey (hfrom pairs hpairs) key) hheap

theorem step_distinct {r : Option Word} (h : vm.step host = .ok (r, vm'))
    (hdistinct : DistinctKeys vm) (hliteral : LiteralDistinct vm) : DistinctKeys vm' := by
  rcases step_heap h with hsame | ⟨inst, hdone, hfuel, hprogram, hchange⟩
  · intro pairs hmem
    exact hdistinct pairs (hsame ▸ hmem)
  · have htick : DistinctKeys vm.tick := hdistinct
    refine hchange.distinct htick (fun n hinst hn => ?_)
    exact hliteral n hdone hfuel (hinst ▸ hprogram) hn

theorem step_literal {n : Nat} (hdone : vm.done = false) (hfuel : vm.fuel ≠ 0)
    (hprogram : vm.program[vm.instPtr]? = some (.pushMap n))
    (hn : n ≤ min vm.tick.fuel ALLOC_CEILING) :
    ∃ r vm', vm.step host = .ok (r, vm') ∧ .map (vm.tick.popPairs n).1 ∈ vm'.heap := by
  refine ⟨(vm.tick.pushMap n).settle.1, (vm.tick.pushMap n).settle.2, ?_, ?_⟩
  · unfold step
    simp only [hdone, hprogram, if_neg hfuel]
    rfl
  · have hgranted : vm.tick.pushMap n =
        (vm.tick.popPairs n).2.allocate (.map (vm.tick.popPairs n).1) := by
      exact if_neg (by omega)
    rw [settle_heap, hgranted, allocate_heap]
    exact List.mem_append_right _ List.mem_cons_self

/-- In a run, all maps are finite maps exactly when every literal has distinct keys; and texts,
lists and maps are never changed. -/
theorem maps_finite_iff (host : Host) (program : List Inst) (fuel : Nat)
    (flowName : Option String) :
    let start := { (ofProgram program).withFuel fuel with flowName := flowName }
    ((∀ vm, Steps host start vm → FiniteMaps vm) ↔ ∀ vm, Steps host start vm → LiteralDistinct vm) ∧
    ∀ vm vm', Steps host start vm → Steps host vm vm' → Later vm vm' := by
  intro start
  refine ⟨⟨fun h vm hsteps n hdone hfuel hprogram hn => ?_, fun h vm hsteps => ?_⟩,
    fun vm vm' _ hsteps => hsteps.later⟩
  · obtain ⟨r, vm', hstep, hmem⟩ : ∃ r vm', vm.step host = .ok (r, vm') ∧
        .map (vm.tick.popPairs n).1 ∈ vm'.heap := step_literal hdone hfuel hprogram hn
    exact (h vm' (hsteps.tail ⟨r, hstep⟩)).distinct _ hmem
  · rw [finiteMaps_iff]
    induction hsteps with
    | refl =>
      intro pairs hmem
      cases hmem
    | tail hsteps hstep ih =>
      obtain ⟨r, hstep⟩ := hstep
      exact step_distinct hstep ih (h _ hsteps)

/-- `function start() -> int { let m: map = { "a": "1" }; return map_len(m); }` -/
def singleKey : Program :=
  [.func "start" [] .integer (.block [
    .declVar "m" .map (some (.map [("a", .string "1")])),
    .return (some (.call "map_len" [.var "m"]))])]

def singleKeyCode : List Inst :=
  [.jump 10, .pushConst (.string "a"), .pushConst (.string "1"), .pushMap 1, .storeLocal 0,
    .loadLocal 0, .mapLen, .retVal, .pop, .ret, .call 1 0]

/-- `function start() -> int { let m: map = { "a": "1", "a": "2" };
return map_len(map_del(m, "a")); }` -/
def doubleKey : Program :=
  [.func "start" [] .integer (.block [
    .declVar "m" .map (some (.map [("a", .string "1"), ("a", .string "2")])),
    .return (some (.call "map_len" [.call "map_del" [.var "m", .string "a"]]))])]

def doubleKeyCode : List Inst :=
  [.jump 14, .pushConst (.string "a"), .pushConst (.string "1"), .pushConst (.string "a"),
    .pushConst (.string "2"), .pushMap 2, .storeLocal 0, .loadLocal 0, .pushConst (.string "a"),
    .mapDel, .mapLen, .retVal, .pop, .ret, .call 1 0]

theorem keys_compiled : compileProgram singleKey = some singleKeyCode ∧
    compileProgram doubleKey = some doubleKeyCode := by
  decide +kernel

theorem maps_finite_iff_single :
    compileProgram singleKey = some singleKeyCode ∧
      ∀ vm, Steps quietHost { (ofProgram singleKeyCode).withFuel 100 with flowName := none } vm →
        FiniteMaps vm := by
  refine ⟨keys_compiled.1, ?_⟩
  refine (maps_finite_iff quietHost singleKeyCode 100 none).1.mpr
    (fun vm hsteps n _ _ hinst _ => ?_)
  rw [hsteps.program] at hinst
  have hn : n = 1 := by
    have hmem : Inst.pushMap n ∈ singleKeyCode := List.mem_of_getElem? hinst
    simpa [singleKeyCode] using hmem
  rw [hn]
  exact List.nodup_singleton _

/-- A literal with one key twice builds a map of two pairs, of which the deletion of the key leaves
none. -/
theorem double_key_map :
    compileProgram doubleKey = some doubleKeyCode ∧
      (∃ vm, Steps quietHost ((ofProgram doubleKeyCode).withFuel 100) vm ∧ ¬ FiniteMaps vm) ∧
      ∃ vm, ((ofProgram doubleKeyCode).withFuel 100).run quietHost = .result 0 vm := by
  refine ⟨keys_compiled.2, ⟨_, .head ⟨none, rfl⟩ (.head ⟨none, rfl⟩ (.head ⟨none, rfl⟩
    (.head ⟨none, rfl⟩ (.head ⟨none, rfl⟩ (.head ⟨none, rfl⟩ (.head ⟨none, rfl⟩ .refl)))))),
    fun h => ?_⟩, _, rfl⟩
  have hnodup := h.distinct [("a", 1), ("a", 3)] (by decide)
  exact absurd hnodup (by decide)

end VM

end Sol

end Relux
