import AuraGateway.Provider.ChatChunks

/-!
# The tool calls of a stream

What a stream of fragments says: one call for each index, with the last id and name received
for it and its arguments joined. The final response has these calls, whatever the order in
which the hash map is visited, exactly when there is one call and the fragments that the
transformer does not come to make no difference to it (`callItems_eq_received_iff`).
-/

set_option autoImplicit false

namespace AuraGateway.Provider

open AuraGateway.Foundations AuraGateway.Foundations.KeyedFolds AuraGateway.Types

/-! ## Received calls -/

def ofIndex (frags : List StreamToolCall) (i : Nat) : List StreamToolCall :=
  frags.filter fun tc => tc.index = i

/-- The last id received. -/
def lastId (frags : List StreamToolCall) : String := (frags.filterMap (·.id)).getLast?.getD ""

/-- The last name received. -/
def lastName (frags : List StreamToolCall) : String :=
  (frags.filterMap (·.name)).getLast?.getD ""

/-- The arguments received, joined. -/
def joinedArguments (frags : List StreamToolCall) : String :=
  String.join (frags.map fun tc => tc.arguments.getD "")

/-- The call of an index. -/
def receivedCall (frags : List StreamToolCall) (i : Nat) : Item :=
  Item.newFunctionCall ("fc_" ++ toString i) (lastId (ofIndex frags i))
    (lastName (ofIndex frags i)) (joinedArguments (ofIndex frags i))

/-- The indices, in ascending order. -/
def receivedIndices (frags : List StreamToolCall) : List Nat :=
  (frags.map (·.index)).toFinset.sort (· ≤ ·)

/-- One call for each index, in ascending order. -/
def receivedCalls (frags : List StreamToolCall) : List Item :=
  (receivedIndices frags).map (receivedCall frags)

/-! ## Accumulated calls -/

/-- The entries after a series of fragments. -/
def accumulated (frags : List StreamToolCall) : List (Nat × PartialToolCall) :=
  collect {} StreamToolCall.index StreamToolCall.merge frags

theorem foldl_merge (frags : List StreamToolCall) :
    frags.foldl (fun b tc => tc.merge b) {}
      = { id := lastId frags, name := lastName frags, arguments := joinedArguments frags } := by
  induction frags using List.reverseRecOn with
  | nil => rfl
  | append_singleton frags tc ih =>
      rw [List.foldl_append, ih]
      have hid : tc.id.getD (lastId frags) = lastId (frags ++ [tc]) := by
        cases h : tc.id <;> simp [lastId, h]
      have hname : tc.name.getD (lastName frags) = lastName (frags ++ [tc]) := by
        cases h : tc.name <;> simp [lastName, h]
      have hargs : joinedArguments frags ++ tc.arguments.getD ""
          = joinedArguments (frags ++ [tc]) := by
        simp [joinedArguments, String.join_append]
      simp [StreamToolCall.merge, hid, hname, hargs]

/-- An entry is the call of its index. -/
theorem entry_merge (frags : List StreamToolCall) (i : Nat) :
    entry {} StreamToolCall.index StreamToolCall.merge frags i
      = { id := lastId (ofIndex frags i), name := lastName (ofIndex frags i)
          arguments := joinedArguments (ofIndex frags i) } :=
  foldl_merge (ofIndex frags i)

/-- The indices of the entries. -/
def indices (frags : List StreamToolCall) : List Nat := (accumulated frags).map Prod.fst

theorem mem_indices {frags : List StreamToolCall} {i : Nat} :
    i ∈ indices frags ↔ i ∈ frags.map (·.index) :=
  mem_keys_collect frags i

theorem nodup_indices (frags : List StreamToolCall) : (indices frags).Nodup :=
  keyed_collect frags

/-- A hash map that is visited from the first entry to the last. -/
def HashOrder.forward {α : Type} : HashOrder α := ⟨id, fun l => List.Perm.refl l⟩

/-- A hash map that is visited from the last entry to the first. -/
def HashOrder.backward {α : Type} : HashOrder α := ⟨List.reverse, fun l => List.reverse_perm l⟩

theorem map_accumulated (frags : List StreamToolCall) :
    (accumulated frags).map (fun p =>
        Item.newFunctionCall ("fc_" ++ toString p.1) p.2.id p.2.name p.2.arguments)
      = (indices frags).map (receivedCall frags) := by
  have heq : accumulated frags = (indices frags).map fun k =>
      (k, entry {} StreamToolCall.index StreamToolCall.merge frags k) := collect_eq_map frags
  calc (accumulated frags).map (fun p =>
        Item.newFunctionCall ("fc_" ++ toString p.1) p.2.id p.2.name p.2.arguments)
      = ((indices frags).map fun k =>
          (k, entry {} StreamToolCall.index StreamToolCall.merge frags k)).map (fun p =>
        Item.newFunctionCall ("fc_" ++ toString p.1) p.2.id p.2.name p.2.arguments) :=
          congrArg _ heq
    _ = (indices frags).map (receivedCall frags) := by
        rw [List.map_map]
        refine List.map_congr_left fun k _ => ?_
        simp [entry_merge, receivedCall]

theorem callItems_forward (frags : List StreamToolCall) :
    callItems .forward (accumulated frags) = (indices frags).map (receivedCall frags) :=
  map_accumulated frags

theorem callItems_backward (frags : List StreamToolCall) :
    callItems .backward (accumulated frags)
      = ((indices frags).map (receivedCall frags)).reverse := by
  rw [callItems, HashOrder.backward, List.map_reverse, map_accumulated]

/-- Up to their order, the function calls are those of the fragments that are reached. -/
theorem callItems_perm (order : HashOrder (Nat × PartialToolCall)) (frags : List StreamToolCall) :
    (callItems order (accumulated frags)).Perm ((indices frags).map (receivedCall frags)) := by
  rw [callItems, ← map_accumulated]
  exact (order.perm _).map _

theorem receivedCall_inj {frags frags' : List StreamToolCall} {i j : Nat}
    (h : receivedCall frags i = receivedCall frags' j) :
    i = j ∧ lastId (ofIndex frags i) = lastId (ofIndex frags' j)
      ∧ lastName (ofIndex frags i) = lastName (ofIndex frags' j)
      ∧ joinedArguments (ofIndex frags i) = joinedArguments (ofIndex frags' j) := by
  simp only [receivedCall, Item.newFunctionCall, Item.functionCall.injEq,
    String.append_right_inj] at h
  obtain ⟨hindex, hid, hname, hargs, -⟩ := h
  exact ⟨Nat.repr_injective hindex, hid, hname, hargs⟩

/-! ## Lost fragments -/

theorem joinedArguments_append (l m : List StreamToolCall) :
    joinedArguments (l ++ m) = joinedArguments l ++ joinedArguments m := by
  rw [joinedArguments, List.map_append, String.join_append]
  rfl

theorem joinedArguments_eq_empty {l : List StreamToolCall} :
    joinedArguments l = "" ↔ ∀ tc ∈ l, tc.arguments.getD "" = "" := by
  induction l with
  | nil => simp [joinedArguments]
  | cons tc l ih =>
      rw [← List.singleton_append, joinedArguments_append, String.append_eq_empty_iff, ih]
      simp [joinedArguments]

theorem length_joinedArguments (cs : List StreamChunk) :
    (joinedArguments (fragments cs)).length
      = (joinedArguments (reached cs)).length + (joinedArguments (lost cs)).length := by
  induction cs with
  | nil => rfl
  | cons c cs ih =>
      simp only [fragments, reached, lost, List.flatMap_cons, joinedArguments_append,
        c.fragments_eq, String.length_append] at ih ⊢
      omega

/-- The arguments are whole exactly when no text of them is lost. -/
theorem joinedArguments_reached_iff (cs : List StreamChunk) :
    joinedArguments (reached cs) = joinedArguments (fragments cs)
      ↔ ∀ tc ∈ lost cs, tc.arguments.getD "" = "" := by
  rw [← joinedArguments_eq_empty]
  constructor
  · intro h
    have hlen := length_joinedArguments cs
    rw [h] at hlen
    exact String.length_eq_zero_iff.mp (by omega)
  · intro h
    induction cs with
    | nil => rfl
    | cons c cs ih =>
        simp only [lost, reached, fragments, List.flatMap_cons, joinedArguments_append,
          c.fragments_eq, String.append_eq_empty_iff] at h ih ⊢
        rw [h.1, ih h.2, String.append_empty]

theorem ofIndex_eq_self {frags : List StreamToolCall} {i : Nat}
    (h : ∀ tc ∈ frags, tc.index = i) : ofIndex frags i = frags :=
  List.filter_eq_self.mpr fun tc htc => decide_eq_true (h tc htc)

theorem indices_eq_singleton {frags : List StreamToolCall} {i : Nat} (hne : frags ≠ [])
    (h : ∀ tc ∈ frags, tc.index = i) : indices frags = [i] := by
  have hall : ∀ k ∈ indices frags, k = i := by
    intro k hk
    obtain ⟨tc, htc, rfl⟩ := List.mem_map.mp (mem_indices.mp hk)
    exact h tc htc
  have hmem : i ∈ indices frags := by
    obtain ⟨tc, htc⟩ := List.exists_mem_of_ne_nil frags hne
    exact mem_indices.mpr (List.mem_map.mpr ⟨tc, htc, h tc htc⟩)
  exact List.perm_singleton.mp ((List.perm_ext_iff_of_nodup (nodup_indices frags)
    (List.nodup_singleton i)).mpr fun k =>
      ⟨fun hk => List.mem_singleton.mpr (hall k hk), fun hk => List.mem_singleton.mp hk ▸ hmem⟩)

theorem mem_receivedIndices {frags : List StreamToolCall} {i : Nat} :
    i ∈ receivedIndices frags ↔ i ∈ frags.map (·.index) := by
  rw [receivedIndices, Finset.mem_sort, List.mem_toFinset]

theorem receivedIndices_eq_singleton {frags : List StreamToolCall} {i : Nat} (hne : frags ≠ [])
    (h : ∀ tc ∈ frags, tc.index = i) : receivedIndices frags = [i] := by
  have hset : (frags.map (·.index)).toFinset = {i} := by
    ext k
    rw [List.mem_toFinset, ← mem_indices, indices_eq_singleton hne h, List.mem_singleton,
      Finset.mem_singleton]
  rw [receivedIndices, hset, Finset.sort_singleton]

/-- Keys that read the same in both directions are at most one. -/
theorem length_le_one_of_reverse {l : List Nat} (hnodup : l.Nodup) (h : l = l.reverse) :
    l.length ≤ 1 := by
  cases l with
  | nil => exact Nat.zero_le 1
  | cons a l =>
      cases l with
      | nil => exact le_refl 1
      | cons b l =>
          -- the first would come again as the last
          have hlast : (a :: b :: l).getLast? = some a := by
            rw [h, List.getLast?_reverse]
            rfl
          rw [List.getLast?_cons_cons] at hlast
          exact absurd (List.mem_of_getLast? hlast) (List.nodup_cons.mp hnodup).1

/-- One call, of which no lost fragment carries anything that would have made a difference. -/
structure CallsKept (cs : List StreamChunk) : Prop where
  oneCall : ∀ a ∈ fragments cs, ∀ b ∈ fragments cs, a.index = b.index
  someReached : fragments cs ≠ [] → reached cs ≠ []
  lostArguments : ∀ tc ∈ lost cs, tc.arguments.getD "" = ""
  lastId_reached : lastId (reached cs) = lastId (fragments cs)
  lastName_reached : lastName (reached cs) = lastName (fragments cs)

/-- Equal lists of calls have equal indices. -/
theorem map_receivedCall_inj {frags frags' : List StreamToolCall} {l l' : List Nat}
    (h : l.map (receivedCall frags) = l'.map (receivedCall frags')) :
    l = l' ∧ ∀ i ∈ l, receivedCall frags i = receivedCall frags' i := by
  induction l generalizing l' with
  | nil => exact ⟨(List.map_eq_nil_iff.mp h.symm).symm, fun i hi => absurd hi List.not_mem_nil⟩
  | cons i l ih =>
      cases l' with
      | nil => cases h
      | cons j l' =>
          rw [List.map_cons, List.map_cons] at h
          obtain ⟨hhead, htail⟩ := List.cons.inj h
          obtain ⟨rfl, -⟩ := receivedCall_inj hhead
          obtain ⟨rfl, hall⟩ := ih htail
          refine ⟨rfl, fun k hk => ?_⟩
          rcases List.mem_cons.mp hk with rfl | hk
          · exact hhead
          · exact hall k hk

theorem CallsKept.of_items {cs : List StreamChunk}
    (h : ∀ order, callItems order (accumulated (reached cs)) = receivedCalls (fragments cs)) :
    CallsKept cs := by
  have hf := h .forward
  have hb := h .backward
  rw [callItems_forward] at hf
  rw [callItems_backward, hf, receivedCalls, ← List.map_reverse] at hb
  obtain ⟨hindices, hcalls⟩ := map_receivedCall_inj hf
  -- both directions of the map give the received calls: there is at most one
  have hone : (receivedIndices (fragments cs)).length ≤ 1 := by
    refine length_le_one_of_reverse ?_ (map_receivedCall_inj hb).1.symm
    rw [← hindices]
    exact nodup_indices _
  by_cases hne : fragments cs = []
  · have hlost : ∀ tc, tc ∉ lost cs := fun tc htc =>
      List.not_mem_nil (hne ▸ mem_fragments.mpr (Or.inr htc))
    have hreached : reached cs = [] := List.eq_nil_iff_forall_not_mem.mpr fun tc htc =>
      List.not_mem_nil (hne ▸ mem_fragments.mpr (Or.inl htc))
    exact
      { oneCall := fun a ha => absurd (hne ▸ ha) List.not_mem_nil
        someReached := fun h => absurd hne h
        lostArguments := fun tc htc => absurd htc (hlost tc)
        lastId_reached := by rw [hreached, hne]
        lastName_reached := by rw [hreached, hne] }
  · obtain ⟨first, hfirst⟩ := List.exists_mem_of_ne_nil _ hne
    have hmem : first.index ∈ receivedIndices (fragments cs) :=
      mem_receivedIndices.mpr (List.mem_map.mpr ⟨first, hfirst, rfl⟩)
    have hsingle : receivedIndices (fragments cs) = [first.index] := by
      obtain ⟨i, hi⟩ := List.length_eq_one_iff.mp
        (le_antisymm hone (List.length_pos_of_mem hmem))
      rw [hi] at hmem ⊢
      rw [List.mem_singleton.mp hmem]
    have hall : ∀ tc ∈ fragments cs, tc.index = first.index := by
      intro tc htc
      have := mem_receivedIndices.mpr (List.mem_map.mpr ⟨tc, htc, rfl⟩)
      rw [hsingle] at this
      exact List.mem_singleton.mp this
    have hmemr : first.index ∈ indices (reached cs) := by rw [hindices, hsingle]; simp
    have hsome : reached cs ≠ [] := by
      intro hnil
      rw [hnil] at hmemr
      exact absurd hmemr List.not_mem_nil
    obtain ⟨-, hid, hname, hargs⟩ := receivedCall_inj (hcalls _ hmemr)
    have hreached : ∀ tc ∈ reached cs, tc.index = first.index := fun tc htc =>
      hall tc (mem_fragments.mpr (Or.inl htc))
    rw [ofIndex_eq_self hall, ofIndex_eq_self hreached] at hid hname hargs
    exact
      { oneCall := fun a ha b hb => (hall a ha).trans (hall b hb).symm
        someReached := fun _ => hsome
        lostArguments := (joinedArguments_reached_iff cs).mp hargs
        lastId_reached := hid
        lastName_reached := hname }

theorem CallsKept.items {cs : List StreamChunk} (h : CallsKept cs)
    (order : HashOrder (Nat × PartialToolCall)) :
    callItems order (accumulated (reached cs)) = receivedCalls (fragments cs) := by
  have hperm := callItems_perm order (reached cs)
  by_cases hne : fragments cs = []
  · have hreached : reached cs = [] := List.eq_nil_iff_forall_not_mem.mpr fun tc htc =>
      List.not_mem_nil (hne ▸ mem_fragments.mpr (Or.inl htc))
    rw [hreached] at hperm ⊢
    rw [hne, hperm.eq_nil]
    simp [receivedCalls, receivedIndices]
  · obtain ⟨first, hfirst⟩ := List.exists_mem_of_ne_nil _ hne
    have hall : ∀ tc ∈ fragments cs, tc.index = first.index := fun tc htc =>
      h.oneCall tc htc first hfirst
    have hreached : ∀ tc ∈ reached cs, tc.index = first.index := fun tc htc =>
      hall tc (mem_fragments.mpr (Or.inl htc))
    have hcall : receivedCall (reached cs) first.index = receivedCall (fragments cs) first.index := by
      rw [receivedCall, receivedCall, ofIndex_eq_self hall, ofIndex_eq_self hreached,
        h.lastId_reached, h.lastName_reached,
        (joinedArguments_reached_iff cs).mpr h.lostArguments]
    rw [indices_eq_singleton (h.someReached hne) hreached, List.map_singleton] at hperm
    rw [receivedCalls, receivedIndices_eq_singleton hne hall, List.map_singleton, ← hcall]
    exact List.perm_singleton.mp hperm

/-- The function calls are the received ones, in whatever order the map is visited, exactly
when there is one call and nothing of it is lost. -/
theorem callItems_eq_received_iff (cs : List StreamChunk) :
    (∀ order, callItems order (accumulated (reached cs)) = receivedCalls (fragments cs))
      ↔ CallsKept cs :=
  ⟨CallsKept.of_items, fun h order => h.items order⟩

end AuraGateway.Provider
