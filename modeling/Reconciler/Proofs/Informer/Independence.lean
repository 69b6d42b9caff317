import Mathlib.Data.Finset.Card
import Mathlib.Data.List.Basic
import Reconciler.Proofs.Informer.Delivery

/-!
# The entries of a cache do not influence each other

A cache knows an object by one text, its key. The names that a server accepts have no slash, so the
slash in a key is the one between namespace and name, and the key tells objects apart. Every use of
a cache then touches the entry of one object, or treats every entry by its own key. So what is done
for other objects shows neither in the answers about an object nor in its entry: it might as well
have a cache of its own. Only the number of objects forgotten at once depends on all of them, and
there every tracked object counts once.

## Main definitions

* `ObjectName`, `ObjectName.Plain` : what tells objects apart, and what a server guarantees of it
* `Cache.Use`, `Cache.answers` : what is done with a cache, and how it answers
* `Cache.own` : the uses that are left without those on other objects
* `Cache.tracked` : which objects are tracked after some uses, told by the uses alone

## Main results

* `ObjectName.injOn_key` : different names have different keys
* `Cache.run_own` : uses on other objects make no difference
* `Cache.Tallies.perform`, `Cache.tallies_run` : the cache has entries for the tracked objects
* `Cache.objects_independent` : all of this for any uses
-/

namespace Reconciler

variable {β : Type}

/-! ### Names and keys -/

/-- What tells an object from all others of its kind. -/
structure ObjectName where
  /-- Where the object is; objects of the whole cluster have no namespace. -/
  namespaceName : Option String
  /-- What it is called there. -/
  name : String
deriving DecidableEq, Repr

namespace ObjectName

/-- The key of the object with this name. -/
def key (n : ObjectName) : String := objectKey n.namespaceName n.name

/-- No slash is in the name, nor in the namespace if there is one. -/
structure Plain (n : ObjectName) : Prop where
  name : '/' ∉ n.name.toList
  namespaceName : ∀ ns ∈ n.namespaceName, '/' ∉ ns.toList

instance (n : ObjectName) : Decidable n.Plain :=
  decidable_of_iff (_ ∧ _) ⟨fun h => ⟨h.1, h.2⟩, fun h => ⟨h.name, h.namespaceName⟩⟩

theorem toList_objectKey_some (ns name : String) :
    (objectKey (some ns) name).toList = ns.toList ++ '/' :: name.toList := by
  simp [objectKey, String.toList_append]

/-- The key of an object of the whole cluster has no slash, and every other key has one, where the
namespace ends. -/
theorem injOn_key : Set.InjOn key {n | n.Plain} := by
  rintro ⟨ns₁, name₁⟩ h₁ ⟨ns₂, name₂⟩ h₂ hkey
  have hlist : (objectKey ns₁ name₁).toList = (objectKey ns₂ name₂).toList :=
    congrArg String.toList hkey
  cases ns₁ with
  | none =>
    cases ns₂ with
    | none => exact congrArg _ hkey
    | some ns₂ =>
      rw [toList_objectKey_some] at hlist
      have hslash : '/' ∈ name₁.toList := by
        rw [show name₁.toList = _ from hlist]
        simp
      exact absurd hslash h₁.name
  | some ns₁ =>
    rw [toList_objectKey_some] at hlist
    cases ns₂ with
    | none =>
      have hslash : '/' ∈ name₂.toList := by
        rw [show name₂.toList = _ from hlist.symm]
        simp
      exact absurd hslash h₂.name
    | some ns₂ =>
      rw [toList_objectKey_some] at hlist
      obtain ⟨hns, -, hname⟩ :=
        (List.append_cons_inj_of_notMem (h₁.namespaceName ns₁ rfl) h₁.name).1 hlist
      have hname : name₁ = name₂ := String.toList_inj.1 hname
      rw [String.toList_inj.1 hns, hname]

/-- With a slash in it a name can be taken for a namespace and a name. -/
example : key ⟨none, "a/b"⟩ = key ⟨some "a", "b"⟩ := by decide

end ObjectName

/-- The name of an object with its namespace. An object that was given no name goes by what its name
will begin with. -/
def Object.fullName (o : Object β) : ObjectName := ⟨o.metadata.namespaceName, o.name⟩

namespace Cache

/-! ### Uses of a cache -/

/-- A use of a cache. -/
inductive Use (β : Type) where
  /-- Take note of an object. -/
  | observe (o : Object β)
  /-- Forget an object that was removed. -/
  | remove (o : Object β)
  /-- Forget all objects but those with the given keys. -/
  | retain (keys : List String)

/-- The answer to a use. -/
inductive Answer where
  /-- Where an object is to be delivered, if it is news. -/
  | observed (route? : Option Route)
  /-- Whether a removal is news. -/
  | removed (isNews : Bool)
  /-- How many objects were forgotten. -/
  | forgot (count : Nat)
deriving DecidableEq, Repr

namespace Use

variable {n : ObjectName} {u : Use β}

/-- The object that the use is on. Forgetting all but some is on none. -/
def object? : Use β → Option (Object β)
  | .observe o | .remove o => some o
  | .retain _ => none

/-- The use is on none but objects with plain names. -/
def Plain (u : Use β) : Prop := ∀ o ∈ u.object?, o.fullName.Plain

instance (u : Use β) : Decidable u.Plain := inferInstanceAs (Decidable (∀ o ∈ u.object?, _))

/-- The use is on the object with this name. -/
def isOn (n : ObjectName) (u : Use β) : Bool := u.object?.any fun o => o.fullName == n

/-- The use is on an object with another name. -/
def isOnOther (n : ObjectName) (u : Use β) : Bool := u.object?.any fun o => o.fullName != n

theorem isOn_of_isOnOther (h : u.isOnOther n = true) : u.isOn n = false := by
  obtain ⟨o, ho, hne⟩ := (Option.any_eq_true ..).1 h
  rw [isOn, ho]
  simpa using hne

end Use

/-- Use a cache once. -/
def perform (c : Cache) : Use β → Answer × Cache
  | .observe o => (.observed (c.observe o).1, (c.observe o).2)
  | .remove o => (.removed (c.remove o).1, (c.remove o).2)
  | .retain keys => (.forgot (c.retain keys).1, (c.retain keys).2)

/-- The cache after some uses. -/
def run (c : Cache) (us : List (Use β)) : Cache := us.foldl (fun c u => (c.perform u).2) c

/-- The uses in order, each with its answer. -/
def answers (c : Cache) : List (Use β) → List (Use β × Answer)
  | [] => []
  | u :: us => (u, (c.perform u).1) :: (c.perform u).2.answers us

/-- The uses on one object, each with its answer. -/
def answersOn (n : ObjectName) (c : Cache) (us : List (Use β)) : List (Use β × Answer) :=
  (c.answers us).filter fun x => x.1.isOn n

/-- The uses that are left without those on objects with another name. -/
def own (n : ObjectName) (us : List (Use β)) : List (Use β) := us.filter fun u => !u.isOnOther n

theorem answers_append (c : Cache) (us us' : List (Use β)) :
    c.answers (us ++ us') = c.answers us ++ (c.run us).answers us' := by
  induction us generalizing c with
  | nil => rfl
  | cons u us ih =>
    rw [List.cons_append, answers, ih, answers, List.cons_append]
    rfl

@[simp] theorem length_answers (c : Cache) (us : List (Use β)) :
    (c.answers us).length = us.length := by
  induction us generalizing c with
  | nil => rfl
  | cons u us ih => rw [answers, List.length_cons, ih, List.length_cons]

/-- The answer to a use is what the cache answers after the uses before it. -/
theorem getElem?_answers (c : Cache) (before : List (Use β)) (u : Use β) (after : List (Use β)) :
    (c.answers (before ++ u :: after))[before.length]? =
      some (u, ((c.run before).perform u).1) := by
  rw [answers_append, List.getElem?_append_right (by simp), length_answers, Nat.sub_self, answers]
  rfl

/-! ### What a use does to one entry -/

section Entry

variable {c c' : Cache} {n : ObjectName} {k : String} {u : Use β} {us : List (Use β)}

theorem knows_congr {o : Object β} (h : c.get? o.key = c'.get? o.key) :
    c.knows o = c'.knows o := by
  rw [knows, knows, h]

/-- What becomes of the entry of a key is told by that entry. -/
theorem get?_perform_congr (h : c.get? k = c'.get? k) (u : Use β) :
    (c.perform u).2.get? k = (c'.perform u).2.get? k := by
  cases u with
  | observe o =>
    change (c.observe o).2.get? k = (c'.observe o).2.get? k
    by_cases hk : k = o.key
    · subst hk
      rw [observe, observe, knows_congr h]
      split
      · exact h
      · rw [get?_put, get?_put, if_pos rfl, if_pos rfl]
    · rw [get?_observe_of_ne c hk, get?_observe_of_ne c' hk, h]
  | remove o =>
    change (c.erase o.key).get? k = (c'.erase o.key).get? k
    rw [get?_erase, get?_erase, h]
  | retain keys =>
    change (c.retain keys).2.get? k = (c'.retain keys).2.get? k
    rw [get?_retain, get?_retain, h]

/-- The answer about an object is told by the entry of its key. -/
theorem fst_perform_congr {o : Object β} (ho : u.object? = some o)
    (h : c.get? o.key = c'.get? o.key) : (c.perform u).1 = (c'.perform u).1 := by
  cases u with
  | observe p =>
    obtain rfl : p = o := Option.some.inj ho
    have hroute : (c.observe p).1 = (c'.observe p).1 := by
      rw [observe, observe, knows_congr h]
      split <;> rfl
    exact congrArg Answer.observed hroute
  | remove p =>
    obtain rfl : p = o := Option.some.inj ho
    have hnews : (c.remove p).1 = (c'.remove p).1 := by rw [remove, remove, h]
    exact congrArg Answer.removed hnews
  | retain keys => cases ho

/-- A use on an object with another key leaves an entry alone. -/
theorem get?_perform_of_ne {o : Object β} (ho : u.object? = some o) (hk : k ≠ o.key) :
    (c.perform u).2.get? k = c.get? k := by
  cases u with
  | observe p =>
    obtain rfl : p = o := Option.some.inj ho
    exact c.get?_observe_of_ne hk
  | remove p =>
    obtain rfl : p = o := Option.some.inj ho
    exact (c.get?_erase p.key k).trans (if_neg hk)
  | retain keys => cases ho

/-! ### Uses on other objects -/

/-- No object that is used has the key of this name, other than the object with the name. -/
def Unshared (n : ObjectName) (us : List (Use β)) : Prop :=
  ∀ u ∈ us, ∀ o, u.object? = some o → o.key = n.key → o.fullName = n

theorem unshared_of_plain (hn : n.Plain) (hus : ∀ u ∈ us, u.Plain) : Unshared n us :=
  fun u hu o ho hkey => ObjectName.injOn_key (hus u hu o ho) hn hkey

theorem Unshared.tail (h : Unshared n (u :: us)) : Unshared n us :=
  fun v hv => h v (List.mem_cons_of_mem u hv)

theorem Unshared.get?_of_isOnOther (h : Unshared n (u :: us)) (hother : u.isOnOther n = true) :
    (c.perform u).2.get? n.key = c.get? n.key := by
  obtain ⟨o, ho, hne⟩ := (Option.any_eq_true ..).1 hother
  have hname : o.fullName ≠ n := by simpa using hne
  refine get?_perform_of_ne ho fun hkey => hname ?_
  exact h u (List.mem_cons_self ..) o ho hkey.symm

/-- Take two caches that have the same entry for an object, use one for all objects and the other
for this one only. They answer the same about it, and in the end they have the same entry for it. -/
theorem run_own (hn : Unshared n us) (h : c.get? n.key = c'.get? n.key) :
    answersOn n c us = answersOn n c' (own n us) ∧
      (c.run us).get? n.key = (c'.run (own n us)).get? n.key := by
  induction us generalizing c c' with
  | nil => exact ⟨rfl, h⟩
  | cons u us ih =>
    cases hother : u.isOnOther n with
    | true =>
      -- The second cache is not used, and the first one keeps the entry.
      have hkept : (c.perform u).2.get? n.key = c'.get? n.key :=
        (hn.get?_of_isOnOther hother).trans h
      obtain ⟨hanswers, hentry⟩ := ih hn.tail hkept
      have hown : own n (u :: us) = own n us := by simp [own, hother]
      have hskip : answersOn n c (u :: us) = answersOn n (c.perform u).2 us := by
        simp [answersOn, answers, Use.isOn_of_isOnOther hother]
      rw [hown, hskip]
      exact ⟨hanswers, hentry⟩
    | false =>
      -- Both are used, for the object or to forget all but some. Only an answer about the object
      -- is compared, and that one is told by its entry.
      obtain ⟨hanswers, hentry⟩ := ih hn.tail (get?_perform_congr h u)
      have hown : own n (u :: us) = u :: own n us := by simp [own, hother]
      rw [hown]
      refine ⟨?_, hentry⟩
      cases hon : u.isOn n with
      | false => simpa [answersOn, answers, hon] using hanswers
      | true =>
        obtain ⟨o, ho, heq⟩ := (Option.any_eq_true ..).1 hon
        have hname : o.fullName = n := by simpa using heq
        have hkey : o.key = n.key := congrArg ObjectName.key hname
        have hanswer : (c.perform u).1 = (c'.perform u).1 := by
          refine fst_perform_congr ho ?_
          rw [hkey, h]
        simpa [answersOn, answers, hon, hanswer] using hanswers

end Entry

/-! ### No key occurs twice -/

section Keys

variable {c : Cache} {k : String}

/-- Every tracked key has one entry. -/
def Distinct (c : Cache) : Prop := (c.entries.map Prod.fst).Nodup

/-- The keys that the cache has entries for. -/
def keySet (c : Cache) : Finset String := (c.entries.map Prod.fst).toFinset

theorem mem_keySet : k ∈ c.keySet ↔ (c.get? k).isSome = true := by
  rw [keySet, List.mem_toFinset, get?, List.lookup_isSome_iff, List.mem_map]
  simp only [beq_iff_eq]
  exact exists_congr fun x => and_congr_right fun _ => eq_comm

theorem keySet_observe (c : Cache) (o : Object β) :
    (c.observe o).2.keySet = insert o.key c.keySet := by
  ext k
  rw [Finset.mem_insert, mem_keySet, mem_keySet]
  by_cases hk : k = o.key
  · obtain ⟨e, he, -⟩ := c.get?_observe_self o
    rw [hk, he]
    simp
  · rw [get?_observe_of_ne c hk]
    simp [hk]

theorem keySet_erase (c : Cache) (key : String) : (c.erase key).keySet = c.keySet.erase key := by
  ext k
  rw [Finset.mem_erase, mem_keySet, mem_keySet, get?_erase]
  split <;> simp [*]

theorem keySet_retain (c : Cache) (keys : List String) :
    (c.retain keys).2.keySet = c.keySet.filter (· ∈ keys) := by
  ext k
  rw [Finset.mem_filter, mem_keySet, mem_keySet, get?_retain]
  split <;> simp_all

theorem Distinct.filter (h : c.Distinct) (p : String × Entry → Bool) :
    Distinct ⟨c.entries.filter p⟩ :=
  h.sublist ((List.filter_sublist ..).map Prod.fst)

theorem Distinct.put (h : c.Distinct) (key : String) (e : Entry) : (c.put key e).Distinct := by
  have hrest := h.filter fun x => x.1 != key
  rw [Distinct, Cache.put, List.map_cons, List.nodup_cons]
  exact ⟨by simp, hrest⟩

theorem Distinct.perform (h : c.Distinct) (u : Use β) : (c.perform u).2.Distinct := by
  cases u with
  | observe o =>
    change (c.observe o).2.Distinct
    rw [observe]
    split
    · exact h
    · exact h.put ..
  | remove o => exact h.filter ..
  | retain keys => exact h.filter ..

/-- As many objects are forgotten as there are keys that are not kept. -/
theorem Distinct.fst_retain (h : c.Distinct) (keys : List String) :
    (c.retain keys).1 = (c.keySet.filter (· ∉ keys)).card := by
  have hkeys : (c.entries.map Prod.fst).Nodup := h
  have hsplit : c.entries.length = (c.entries.filter fun x => keys.contains x.1).length +
      (c.entries.filter fun x => !keys.contains x.1).length :=
    List.length_eq_length_filter_add _
  calc (c.retain keys).1
      = (c.entries.filter fun x => !keys.contains x.1).length := by rw [retain]; omega
    _ = ((c.entries.map Prod.fst).filter (!keys.contains ·)).length := by
      rw [List.filter_map, List.length_map]
      rfl
    _ = (c.keySet.filter (· ∉ keys)).card := by
      rw [← List.toFinset_card_of_nodup (hkeys.filter _), List.toFinset_filter, keySet]
      simp

end Keys

/-! ### Which objects are tracked -/

/-- The tracked objects after one more use. -/
def Use.track (ns : Finset ObjectName) : Use β → Finset ObjectName
  | .observe o => insert o.fullName ns
  | .remove o => ns.erase o.fullName
  | .retain keys => ns.filter (·.key ∈ keys)

/-- The tracked objects after some uses: those that were observed, and neither removed since nor
forgotten with others. -/
def tracked (us : List (Use β)) : Finset ObjectName := us.foldl Use.track ∅

section Tracked

variable {c : Cache} {ns : Finset ObjectName} {u : Use β} {us : List (Use β)}

/-- The cache has one entry for each of these objects, and no other. -/
structure Tallies (c : Cache) (ns : Finset ObjectName) : Prop where
  distinct : c.Distinct
  plain : ∀ n ∈ ns, n.Plain
  keySet_eq : c.keySet = ns.image ObjectName.key

theorem tallies_empty : Tallies {} ∅ where
  distinct := List.nodup_nil
  plain := by simp
  keySet_eq := rfl

theorem Tallies.isSome_get?_iff (h : c.Tallies ns) {k : String} :
    (c.get? k).isSome = true ↔ ∃ n ∈ ns, n.key = k := by
  rw [← mem_keySet, h.keySet_eq, Finset.mem_image]

theorem Tallies.mem_iff (h : c.Tallies ns) {n : ObjectName} (hn : n.Plain) :
    n ∈ ns ↔ (c.get? n.key).isSome = true := by
  rw [h.isSome_get?_iff]
  constructor
  · intro hmem
    exact ⟨n, hmem, rfl⟩
  · rintro ⟨m, hmem, hkey⟩
    rwa [← ObjectName.injOn_key (h.plain m hmem) hn hkey]

/-- Every use keeps the tally. A removal takes no other object away, since no other has its key. -/
theorem Tallies.perform (h : c.Tallies ns) (hu : u.Plain) :
    (c.perform u).2.Tallies (u.track ns) := by
  cases u with
  | observe o =>
    refine ⟨h.distinct.perform _, fun n hn => ?_, ?_⟩
    · rcases Finset.mem_insert.1 hn with rfl | hn
      · exact hu o rfl
      · exact h.plain n hn
    · change (c.observe o).2.keySet = (insert o.fullName ns).image ObjectName.key
      rw [keySet_observe, h.keySet_eq, Finset.image_insert]
      rfl
  | remove o =>
    refine ⟨h.distinct.perform _, fun n hn => h.plain n (Finset.mem_of_mem_erase hn), ?_⟩
    change (c.erase o.key).keySet = (ns.erase o.fullName).image ObjectName.key
    rw [keySet_erase, h.keySet_eq]
    ext k
    simp only [Finset.mem_erase, Finset.mem_image]
    constructor
    · rintro ⟨hk, n, hn, rfl⟩
      exact ⟨n, ⟨fun heq => hk (congrArg ObjectName.key heq), hn⟩, rfl⟩
    · rintro ⟨n, ⟨hne, hn⟩, rfl⟩
      exact ⟨fun hkey => hne (ObjectName.injOn_key (h.plain n hn) (hu o rfl) hkey), n, hn, rfl⟩
  | retain keys =>
    refine ⟨h.distinct.perform _, fun n hn => h.plain n (Finset.mem_filter.1 hn).1, ?_⟩
    change (c.retain keys).2.keySet = (ns.filter (·.key ∈ keys)).image ObjectName.key
    rw [keySet_retain, h.keySet_eq, Finset.filter_image]

theorem Tallies.foldl (h : c.Tallies ns) (hus : ∀ u ∈ us, u.Plain) :
    (c.run us).Tallies (us.foldl Use.track ns) := by
  induction us generalizing c ns with
  | nil => exact h
  | cons u us ih =>
    have hfirst := h.perform (hus u (List.mem_cons_self ..))
    exact ih hfirst fun v hv => hus v (List.mem_cons_of_mem u hv)

theorem tallies_run (hus : ∀ u ∈ us, u.Plain) : (run {} us).Tallies (tracked us) :=
  tallies_empty.foldl hus

/-- As many objects are forgotten as are tracked and not kept. -/
theorem Tallies.fst_retain (h : c.Tallies ns) (keys : List String) :
    (c.retain keys).1 = (ns.filter (·.key ∉ keys)).card := by
  have hinj : Set.InjOn ObjectName.key (ns.filter (·.key ∉ keys)) :=
    ObjectName.injOn_key.mono fun n hn => h.plain n (Finset.mem_filter.1 hn).1
  rw [h.distinct.fst_retain, h.keySet_eq, Finset.filter_image, Finset.card_image_of_injOn hinj]

end Tracked

/-! ### Any uses -/

/-- Use a cache that starts empty, in any order, for objects with plain names. What it answers about
an object and the entry that the object has in the end are as if it had not been used for others.
The object has an entry exactly if it is tracked. Forgetting all objects but some forgets as many as
are tracked and not among these. -/
theorem objects_independent (us : List (Use β)) (hus : ∀ u ∈ us, u.Plain) :
    (∀ n : ObjectName, n.Plain →
      answersOn n {} us = answersOn n {} (own n us) ∧
      (run {} us).get? n.key = (run {} (own n us)).get? n.key ∧
      (n ∈ tracked us ↔ ((run {} us).get? n.key).isSome = true)) ∧
    ∀ before keys after, us = before ++ .retain keys :: after →
      (answers {} us)[before.length]? =
        some (.retain keys, .forgot ((tracked before).filter (·.key ∉ keys)).card) := by
  refine ⟨fun n hn => ?_, ?_⟩
  · obtain ⟨hanswers, hentry⟩ := run_own (c := {}) (unshared_of_plain hn hus) rfl
    exact ⟨hanswers, hentry, (tallies_run hus).mem_iff hn⟩
  · rintro before keys after rfl
    have hbefore := tallies_run fun u hu => hus u (List.mem_append_left _ hu)
    rw [getElem?_answers, Cache.perform, hbefore.fst_retain]

/-- Of two objects with the same name one is in a namespace and one in the whole cluster. -/
def twin (ns : Option String) (version : String) : Object Unit where
  metadata := { name := some "b", namespaceName := ns, resourceVersion := some version }
  body := ()

/-- Both are used in turn, and the one in the namespace is forgotten at the end. -/
def twinUses : List (Use Unit) :=
  [.observe (twin none "1"), .observe (twin (some "a") "1"), .remove (twin (some "a") "1"),
    .observe (twin none "1"), .observe (twin (some "a") "1"), .remove (twin none "2"),
    .retain ["b"]]

theorem objects_independent_twins :
    (∀ u ∈ twinUses, u.Plain) ∧ ObjectName.Plain ⟨none, "b"⟩ ∧
      (answersOn ⟨none, "b"⟩ {} twinUses).map Prod.snd =
        [.observed (some .update), .observed none, .removed true] ∧
      (run {} twinUses).get? "b" = none ∧
      (answers {} twinUses)[6]? = some (.retain ["b"], .forgot 1) := by
  have hplain : ∀ u ∈ twinUses, u.Plain := by decide
  have hname : ObjectName.Plain ⟨none, "b"⟩ := by decide
  obtain ⟨hothers, hforgot⟩ := objects_independent twinUses hplain
  obtain ⟨hanswers, hentry, -⟩ := hothers _ hname
  refine ⟨hplain, hname, ?_, ?_, ?_⟩
  · rw [hanswers]
    decide
  · exact hentry.trans (by decide)
  · have hcount : ((tracked (twinUses.take 6)).filter (·.key ∉ ["b"])).card = 1 := by decide
    have hanswer := hforgot (twinUses.take 6) ["b"] [] rfl
    rw [hcount] at hanswer
    exact hanswer

end Cache

end Reconciler
