import StrayTouch.Document.Keyed
import Mathlib.Data.List.Induction
import Mathlib.Data.List.Nodup

/-!
Keyed lists by the keys of their entries. Writing to a key changes the entry of that key alone or
puts one at the end, and entries with distinct keys are a mapping as they stand. A list of keys is
rid of its duplicates by keeping each where it first comes.
-/
namespace StrayTouch

theorem Name.sameKey_iff {a b : Name} : a.sameKey b = true ↔ a.key = b.key := by
  simp [sameKey]

theorem Name.sameKey_eq_false_iff {a b : Name} : a.sameKey b = false ↔ a.key ≠ b.key := by
  simp [sameKey]

private theorem nodup_eraseDups {β : Type} [BEq β] [LawfulBEq β] (l : List β) :
    l.eraseDups.Nodup := by
  match l with
  | [] => simp
  | a :: rest =>
    have hshort : (rest.filter fun b => !b == a).length < (a :: rest).length :=
      Nat.lt_succ_of_le (List.length_filter_le _ rest)
    rw [List.eraseDups_cons, List.nodup_cons, List.mem_eraseDups]
    exact ⟨by simp, nodup_eraseDups _⟩
termination_by l.length
decreasing_by exact hshort

namespace Name

theorem map_key_eraseDupsBy (l : List Name) :
    (l.eraseDupsBy sameKey).map key = (l.map key).eraseDups := by
  suffices hs : ∀ done : List Name, (List.eraseDupsBy.loop sameKey l done).map key =
      List.eraseDupsBy.loop (· == ·) (l.map key) (done.map key) from hs []
  induction l with
  | nil => simp [List.eraseDupsBy.loop]
  | cons a l ih =>
    intro done
    have ha : (done.map key).any (a.key == ·) = done.any a.sameKey := by
      rw [List.any_map]
      rfl
    simp only [List.eraseDupsBy.loop, List.map_cons, ha]
    cases done.any a.sameKey with
    | true => exact ih done
    | false => exact ih (a :: done)

theorem nodup_eraseDupsBy (l : List Name) : ((l.eraseDupsBy sameKey).map key).Nodup := by
  rw [map_key_eraseDupsBy]
  exact nodup_eraseDups _

theorem eraseDupsBy_subset (l : List Name) : l.eraseDupsBy sameKey ⊆ l := by
  suffices hs : ∀ done : List Name, List.eraseDupsBy.loop sameKey l done ⊆ l ++ done by
    simpa [List.eraseDupsBy] using hs []
  induction l with
  | nil => simp [List.eraseDupsBy.loop]
  | cons a l ih =>
    intro done b hb
    simp only [List.eraseDupsBy.loop] at hb
    split at hb
    · exact List.mem_cons_of_mem _ (ih done hb)
    · have hm := ih (a :: done) hb
      simp only [List.cons_append, List.mem_cons, List.mem_append] at hm ⊢
      tauto

/-- Where the atoms of a list differ by their keys as far as they differ at all, none is lost. -/
theorem mem_eraseDupsBy_iff {a : Name} {l : List Name} (h : ∀ b ∈ l, b.key = a.key → b = a) :
    a ∈ l.eraseDupsBy sameKey ↔ a ∈ l := by
  refine ⟨fun ha => eraseDupsBy_subset l ha, fun ha => ?_⟩
  have hk : a.key ∈ (l.eraseDupsBy sameKey).map key := by
    rw [map_key_eraseDupsBy, List.mem_eraseDups]
    exact List.mem_map_of_mem ha
  obtain ⟨b, hb, he⟩ := List.mem_map.mp hk
  exact h b (eraseDupsBy_subset l hb) he ▸ hb

private theorem eraseDupsBy_loop_concat (l done : List Name) (a : Name) :
    List.eraseDupsBy.loop sameKey (l ++ [a]) done =
      if (List.eraseDupsBy.loop sameKey l done).any a.sameKey then
        List.eraseDupsBy.loop sameKey l done
      else List.eraseDupsBy.loop sameKey l done ++ [a] := by
  induction l generalizing done with
  | nil => cases h : done.any a.sameKey <;> simp [List.eraseDupsBy.loop, h]
  | cons b l ih => cases h : done.any b.sameKey <;> simp [List.eraseDupsBy.loop, h, ih]

theorem eraseDupsBy_concat (l : List Name) (a : Name) :
    (l ++ [a]).eraseDupsBy sameKey =
      if (l.eraseDupsBy sameKey).any a.sameKey then l.eraseDupsBy sameKey
      else l.eraseDupsBy sameKey ++ [a] :=
  eraseDupsBy_loop_concat l [] a

theorem eraseDupsBy_eq_nil_iff {l : List Name} : l.eraseDupsBy sameKey = [] ↔ l = [] := by
  refine ⟨fun h => ?_, by rintro rfl; rfl⟩
  have hk := map_key_eraseDupsBy l
  rw [h, List.map_nil] at hk
  cases l with
  | nil => rfl
  | cons a l => cases hk.trans List.eraseDups_cons

end Name

namespace Keyed

variable {β : Type} {m : List (Name × β)} {key : Name} {value : β}

def marks (m : List (Name × β)) : List Key :=
  m.map fun e => e.1.key

def Distinct (m : List (Name × β)) : Prop :=
  (marks m).Nodup

theorem marks_eq_map_keys (m : List (Name × β)) : marks m = (keys m).map Name.key := by
  simp [marks, keys]

theorem get?_eq_none_iff : get? m key = none ↔ key.key ∉ marks m := by
  induction m with
  | nil => simp [get?, marks]
  | cons e rest ih =>
    obtain ⟨k, v⟩ := e
    by_cases h : k.key = key.key
    · simp [get?, marks, Name.sameKey_iff.mpr h, h]
    · have hne : ¬ key.key = k.key := fun he => h he.symm
      simpa [get?, marks, Name.sameKey_eq_false_iff.mpr h, hne] using ih

theorem mem_of_get? (h : get? m key = some value) :
    ∃ k, k.key = key.key ∧ (k, value) ∈ m := by
  induction m with
  | nil => simp [get?] at h
  | cons e rest ih =>
    obtain ⟨k, v⟩ := e
    simp only [get?] at h
    split at h
    next hk =>
      cases h
      exact ⟨k, Name.sameKey_iff.mp hk, List.mem_cons_self⟩
    next =>
      obtain ⟨k', hk, hm⟩ := ih h
      exact ⟨k', hk, List.mem_cons_of_mem _ hm⟩

theorem get?_eq_some_iff (hd : Distinct m) :
    get? m key = some value ↔ ∃ k, k.key = key.key ∧ (k, value) ∈ m := by
  refine ⟨mem_of_get?, ?_⟩
  rintro ⟨k, hk, hm⟩
  induction m with
  | nil => cases hm
  | cons e rest ih =>
    obtain ⟨hn, hrest⟩ : e.1.key ∉ marks rest ∧ Distinct rest := List.nodup_cons.mp hd
    rcases List.mem_cons.mp hm with rfl | hm
    · exact if_pos (Name.sameKey_iff.mpr hk)
    · have hne : e.1.sameKey key = false := by
        refine Name.sameKey_eq_false_iff.mpr fun he => hn ?_
        rw [he, ← hk]
        exact List.mem_map_of_mem (f := fun e => e.1.key) hm
      rw [get?, hne]
      exact ih hrest hm

theorem get?_map_snd {γ : Type} (m : List (Name × β)) (f : β → γ) (key : Name) :
    get? (m.map fun e => (e.1, f e.2)) key = (get? m key).map f := by
  induction m with
  | nil => rfl
  | cons e rest ih =>
    simp only [List.map_cons, get?, ih]
    split <;> rfl

theorem keys_map_snd {γ : Type} (m : List (Name × β)) (f : β → γ) :
    keys (m.map fun e => (e.1, f e.2)) = keys m := by
  rw [keys, List.map_map]
  rfl

theorem distinct_map_snd {γ : Type} (f : β → γ) :
    Distinct (m.map fun e => (e.1, f e.2)) ↔ Distinct m := by
  rw [Distinct, Distinct, marks_eq_map_keys, marks_eq_map_keys, keys_map_snd]

theorem get?_forall₂ {γ : Type} {R : β → γ → Prop} {n : List (Name × γ)}
    (h : List.Forall₂ (fun a b => a.1 = b.1 ∧ R a.2 b.2) m n) (key : Name) :
    Option.Rel R (get? m key) (get? n key) := by
  induction h with
  | nil => exact .none
  | @cons a b _ _ hab _ ih =>
    obtain ⟨hkey, hvalue⟩ := hab
    simp only [get?, hkey]
    split
    · exact .some hvalue
    · exact ih

theorem get?_perm {n : List (Name × β)} (hd : Distinct m) (hp : m.Perm n) (key : Name) :
    get? m key = get? n key := by
  have hn : Distinct n := (hp.map fun e : Name × β => e.1.key).nodup hd
  refine Option.ext fun value => ?_
  simp only [get?_eq_some_iff hd, get?_eq_some_iff hn, hp.mem_iff]

theorem put_of_get? (h : get? m key = some value) : put m key value = m := by
  induction m with
  | nil => simp [get?] at h
  | cons e rest ih =>
    obtain ⟨k, v⟩ := e
    simp only [get?] at h
    simp only [put]
    split at h
    next hk =>
      cases h
      rw [if_pos hk]
    next hk => rw [if_neg hk, ih h]

/-- Where the keys are distinct, writing to one that is there changes its entry alone. -/
theorem put_eq_map (hd : Distinct m) (h : get? m key = some value) (f : β → β) :
    put m key (f value) = m.map fun e => if e.1.sameKey key then (e.1, f e.2) else e := by
  induction m with
  | nil => simp [get?] at h
  | cons e rest ih =>
    obtain ⟨k, v⟩ := e
    have hr : k.key ∉ marks rest ∧ Distinct rest := List.nodup_cons.mp hd
    simp only [get?] at h
    simp only [put, List.map_cons]
    split at h
    next hk =>
      cases h
      have ho : ∀ e ∈ rest, ¬ e.1.sameKey key = true := by
        intro e he hs
        refine hr.1 (List.mem_map.mpr ⟨e, he, ?_⟩)
        exact (Name.sameKey_iff.mp hs).trans (Name.sameKey_iff.mp hk).symm
      have hi : rest.map (fun e => if e.1.sameKey key then (e.1, f e.2) else e) = rest := by
        conv_rhs => rw [← List.map_id rest]
        exact List.map_congr_left fun e he => if_neg (ho e he)
      rw [if_pos hk, if_pos hk, hi]
    next hk => rw [if_neg hk, if_neg hk, ih hr.2 h]

theorem eq_or_mem_of_mem_put {e : Name × β} (h : e ∈ put m key value) :
    e.2 = value ∧ (e.1 = key ∨ e.1 ∈ keys m) ∨ e ∈ m := by
  induction m with
  | nil => simp_all [put]
  | cons first rest ih =>
    obtain ⟨k, v⟩ := first
    simp only [put] at h
    split at h
    · rcases List.mem_cons.mp h with rfl | h
      · exact .inl ⟨rfl, .inr List.mem_cons_self⟩
      · exact .inr (List.mem_cons_of_mem _ h)
    · rcases List.mem_cons.mp h with rfl | h
      · exact .inr List.mem_cons_self
      · refine (ih h).imp (And.imp_right ?_) (List.mem_cons_of_mem _)
        exact Or.imp_right (List.mem_cons_of_mem _)

theorem get?_map (ids : List Name) {f : Name → β} (hf : ∀ a b, a.key = b.key → f a = f b)
    (key : Name) : get? (ids.map fun id => (id, f id)) key =
      if ids.any key.sameKey then some (f key) else none := by
  induction ids with
  | nil => rfl
  | cons id ids ih =>
    simp only [List.map_cons, get?, List.any_cons, Name.sameKey_comm key id, ih]
    by_cases h : id.sameKey key = true
    · simp [h, hf id key (Name.sameKey_iff.mp h)]
    · simp [h]

/-- Writing to one of some distinct keys changes what is under it; writing to another key puts it
at the end. -/
theorem put_map {ids : List Name} (hd : (ids.map Name.key).Nodup) (f : Name → β) (key : Name)
    (value : β) : put (ids.map fun id => (id, f id)) key value =
      (if ids.any key.sameKey then ids else ids ++ [key]).map fun id =>
        (id, if key.sameKey id then value else f id) := by
  induction ids with
  | nil => simp [put, Name.sameKey_refl]
  | cons id ids ih =>
    obtain ⟨hn, hd⟩ : id.key ∉ ids.map Name.key ∧ (ids.map Name.key).Nodup := by
      simpa only [List.map_cons, List.nodup_cons] using hd
    simp only [List.map_cons, put, List.any_cons, Name.sameKey_comm key id]
    by_cases h : id.sameKey key = true
    · have hk : key.sameKey id = true := Name.sameKey_comm _ _ ▸ h
      have ho : ∀ other ∈ ids, key.sameKey other = false := by
        intro other hm
        refine Name.sameKey_eq_false_iff.mpr fun he => hn ?_
        rw [Name.sameKey_iff.mp h, he]
        exact List.mem_map_of_mem hm
      have hr : ids.map (fun other => (other, if key.sameKey other then value else f other)) =
          ids.map fun other => (other, f other) :=
        List.map_congr_left fun other hm => by simp [ho other hm]
      simp [h, hk, hr]
    · have hk : key.sameKey id = false := by
        rw [Name.sameKey_comm]
        simpa using h
      simp only [h, Bool.false_eq_true, ↓reduceIte, Bool.false_or, ih hd]
      split <;> simp [hk]

theorem put_append_of_not_mem {done : List (Name × β)} (h : key.key ∉ marks done)
    (m : List (Name × β)) : put (done ++ m) key value = done ++ put m key value := by
  induction done with
  | nil => rfl
  | cons e done ih =>
    obtain ⟨k, v⟩ := e
    obtain ⟨hk, hd⟩ : key.key ≠ k.key ∧ key.key ∉ marks done := by simpa [marks] using h
    have hs : k.sameKey key = false := Name.sameKey_eq_false_iff.mpr (Ne.symm hk)
    simp [put, hs, ih hd]

/-- Writing entries with distinct keys over some that have the first of these keys leaves the
entries as they are. -/
theorem foldl_put_of_prefix {es : List (Name × β)} (hp : keys m <+: keys es) (hd : Distinct es) :
    es.foldl (fun m e => put m e.1 e.2) m = es := by
  suffices hs : ∀ done : List (Name × β), Distinct (done ++ es) →
      es.foldl (fun m e => put m e.1 e.2) (done ++ m) = done ++ es from hs [] hd
  clear hd
  induction es generalizing m with
  | nil =>
    obtain rfl : m = [] := List.map_eq_nil_iff.mp (List.prefix_nil.mp hp)
    exact fun _ _ => rfl
  | cons e es ih =>
    intro done hd
    have hn : e.1.key ∉ marks done := by
      have hd' : (marks done ++ e.1.key :: marks es).Nodup := by
        simpa [Distinct, marks] using hd
      intro hm
      exact (List.nodup_append.mp hd').2.2 _ hm _ List.mem_cons_self rfl
    have hstep : ∃ rest, put m e.1 e.2 = e :: rest ∧ keys rest <+: keys es := by
      cases m with
      | nil => exact ⟨[], rfl, List.nil_prefix⟩
      | cons o old =>
        obtain ⟨hk, hp⟩ := List.cons_prefix_cons.mp hp
        have hs : o.1.sameKey e.1 = true := by rw [hk, Name.sameKey_refl]
        exact ⟨old, by rw [put, if_pos hs, hk], hp⟩
    obtain ⟨rest, hput, hrest⟩ := hstep
    rw [List.foldl_cons, put_append_of_not_mem hn, hput, List.append_cons done e rest,
      List.append_cons done e es]
    exact ih hrest (done ++ [e]) (by rwa [← List.append_cons])

theorem ofEntries_eq_self (h : Distinct m) : ofEntries m = m :=
  foldl_put_of_prefix List.nil_prefix h

theorem distinct_put (h : Distinct m) (key : Name) (value : β) : Distinct (put m key value) := by
  rw [Distinct, marks_eq_map_keys, keys_put]
  cases hg : get? m key with
  | some _ => rwa [Distinct, marks_eq_map_keys] at h
  | none =>
    have hn : key.key ∉ marks m := get?_eq_none_iff.mp hg
    rw [marks_eq_map_keys] at hn
    rw [Distinct, marks_eq_map_keys] at h
    rw [if_neg (by simp), List.map_append]
    exact List.Nodup.append h (List.nodup_singleton _) (List.disjoint_singleton.mpr hn)

theorem distinct_foldl_put (es : List (Name × β)) (h : Distinct m) :
    Distinct (es.foldl (fun m e => put m e.1 e.2) m) := by
  induction es generalizing m with
  | nil => exact h
  | cons e es ih => exact ih (distinct_put h e.1 e.2)

theorem keys_prefix_foldl_put (m es : List (Name × β)) :
    keys m <+: keys (es.foldl (fun m e => put m e.1 e.2) m) := by
  induction es generalizing m with
  | nil => exact List.prefix_refl _
  | cons e es ih =>
    refine List.IsPrefix.trans ?_ (ih _)
    rw [keys_put]
    split
    · exact List.prefix_refl _
    · exact List.prefix_append _ _

theorem get?_congr (m : List (Name × β)) {key other : Name} (h : key.key = other.key) :
    get? m key = get? m other := by
  induction m with
  | nil => rfl
  | cons e rest ih =>
    have hs : e.1.sameKey key = e.1.sameKey other := by simp only [Name.sameKey, h]
    simp only [get?, hs, ih]

/-- What stands under a key after entries with distinct keys have been written over a mapping. -/
theorem get?_foldl_put {es : List (Name × β)} (hd : Distinct es) (key : Name) :
    get? (es.foldl (fun m e => put m e.1 e.2) m) key = (get? es key).or (get? m key) := by
  induction es generalizing m with
  | nil => rfl
  | cons e es ih =>
    obtain ⟨k, v⟩ := e
    obtain ⟨hn, hrest⟩ : k.key ∉ marks es ∧ Distinct es := List.nodup_cons.mp hd
    rw [List.foldl_cons, ih hrest, get?]
    by_cases hk : k.key = key.key
    · have hnone : get? es key = none := by
        rw [get?_eq_none_iff, ← hk]
        exact hn
      rw [if_pos (Name.sameKey_iff.mpr hk), hnone, get?_congr _ hk.symm, get?_put_self]
      rfl
    · have hs : k.sameKey key = false := Name.sameKey_eq_false_iff.mpr hk
      rw [get?_put_of_ne m v hs, if_neg (by simp [hs])]

/-- Writing entries with distinct keys over a mapping leaves its keys as they are, and the keys that
it did not have follow in their order. -/
theorem keys_foldl_put {es : List (Name × β)} (hd : Distinct es) :
    keys (es.foldl (fun m e => put m e.1 e.2) m) =
      keys m ++ (keys es).filter fun k => (get? m k).isNone := by
  induction es generalizing m with
  | nil => simp [keys]
  | cons e es ih =>
    obtain ⟨k, v⟩ := e
    obtain ⟨hn, hrest⟩ : k.key ∉ marks es ∧ Distinct es := List.nodup_cons.mp hd
    have hothers : ((keys es).filter fun other => (get? (put m k v) other).isNone) =
        (keys es).filter fun other => (get? m other).isNone := by
      refine List.filter_congr fun other hother => ?_
      have hne : k.sameKey other = false := by
        refine Name.sameKey_eq_false_iff.mpr fun he => hn ?_
        rw [he, marks_eq_map_keys]
        exact List.mem_map_of_mem hother
      rw [get?_put_of_ne m v hne]
    have hkeys : keys ((k, v) :: es) = k :: keys es := rfl
    rw [List.foldl_cons, ih hrest, hothers, keys_put, hkeys]
    cases hg : get? m k with
    | none => simp [hg]
    | some _ => simp [hg]

theorem isSome_get?_eq_any (m : List (Name × β)) (key : Name) :
    (get? m key).isSome = (keys m).any key.sameKey := by
  induction m with
  | nil => rfl
  | cons e m ih =>
    obtain ⟨k, v⟩ := e
    have hkeys : keys ((k, v) :: m) = k :: keys m := rfl
    rw [hkeys, List.any_cons, Name.sameKey_comm, get?, ← ih]
    cases k.sameKey key <;> simp

theorem ofEntries_concat (es : List (Name × β)) (e : Name × β) :
    ofEntries (es ++ [e]) = put (ofEntries es) e.1 e.2 := by
  rw [ofEntries, List.foldl_append]
  rfl

/-- Each key stands where it first comes. -/
theorem keys_ofEntries (es : List (Name × β)) :
    keys (ofEntries es) = (keys es).eraseDupsBy Name.sameKey := by
  induction es using List.reverseRecOn with
  | nil => rfl
  | append_singleton es e ih =>
    have hkeys : keys (es ++ [e]) = keys es ++ [e.1] := List.map_append
    rw [ofEntries_concat, keys_put, isSome_get?_eq_any, ih, hkeys, Name.eraseDupsBy_concat]

theorem key_mem_of_mem_ofEntries {es : List (Name × β)} {e : Name × β} (h : e ∈ ofEntries es) :
    e.1 ∈ keys es := by
  have hkey : e.1 ∈ keys (ofEntries es) := List.mem_map_of_mem h
  rw [keys_ofEntries] at hkey
  exact Name.eraseDupsBy_subset _ hkey

theorem value_mem_of_mem_ofEntries {es : List (Name × β)} {e : Name × β}
    (h : e ∈ ofEntries es) : e.2 ∈ es.map Prod.snd := by
  induction es using List.reverseRecOn with
  | nil => cases h
  | append_singleton es last ih =>
    rw [ofEntries_concat] at h
    rw [List.map_append, List.mem_append]
    rcases eq_or_mem_of_mem_put h with ⟨hlast, _⟩ | hold
    · exact .inr (List.mem_singleton.mpr hlast)
    · exact .inl (ih hold)

/-- What stands under a key is what comes last under it. -/
theorem get?_ofEntries (es : List (Name × β)) (key : Name) :
    get? (ofEntries es) key = get? es.reverse key := by
  induction es using List.reverseRecOn with
  | nil => rfl
  | append_singleton es e ih =>
    obtain ⟨k, v⟩ := e
    rw [ofEntries_concat, List.reverse_append, List.reverse_singleton, List.singleton_append, get?]
    by_cases hk : k.sameKey key = true
    · rw [if_pos hk, get?_congr _ (Name.sameKey_iff.mp hk).symm, get?_put_self]
    · rw [if_neg hk, get?_put_of_ne _ v (Bool.eq_false_iff.mpr hk), ih]

theorem length_put (m : List (Name × β)) (key : Name) (value : β) :
    (put m key value).length = if (get? m key).isSome then m.length else m.length + 1 := by
  have hlength := congrArg List.length (keys_put m key value)
  rw [keys, List.length_map] at hlength
  rw [hlength]
  split <;> simp [keys]

theorem length_ofEntries_le (es : List (Name × β)) : (ofEntries es).length ≤ es.length := by
  induction es using List.reverseRecOn with
  | nil => exact Nat.le_refl 0
  | append_singleton es e ih =>
    rw [ofEntries_concat, length_put, List.length_append, List.length_singleton]
    split <;> omega

/-- No entry is lost exactly if no key comes twice. -/
theorem length_ofEntries_eq_iff {es : List (Name × β)} :
    (ofEntries es).length = es.length ↔ Distinct es := by
  refine ⟨fun h => ?_, fun h => congrArg List.length (ofEntries_eq_self h)⟩
  induction es using List.reverseRecOn with
  | nil => exact List.nodup_nil
  | append_singleton es e ih =>
    have hle := length_ofEntries_le es
    rw [ofEntries_concat, length_put, List.length_append, List.length_singleton] at h
    cases hg : get? (ofEntries es) e.1 with
    | some _ =>
      rw [hg, Option.isSome_some, if_pos rfl] at h
      omega
    | none =>
      rw [hg, Option.isSome_none, if_neg Bool.false_ne_true] at h
      have hd : Distinct es := ih (Nat.add_right_cancel h)
      rw [ofEntries_eq_self hd, get?_eq_none_iff] at hg
      rw [Distinct, marks, List.map_append, List.map_singleton]
      exact List.Nodup.append hd (List.nodup_singleton _) (List.disjoint_singleton.mpr hg)

end Keyed

end StrayTouch
