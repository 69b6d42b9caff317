import Reconciler.Proofs.Controller.Server

/-!
# Many writers

Several clients edit their finalizers on the objects of one server, each client under a name of its
own, any number of edits at a time, and others write to the server whatever they like. `Writers` is
this traffic; one step is the beginning of an edit, one act of an edit, or one foreign write, so the
requests of all edits interleave in every way.

What a client writes was made from the copy that it read just before, and by compare and swap the
version of that copy is still the stored one. As versions are never reused the stored object is that
copy, so nothing that anybody wrote in between can be lost.

## Main definitions

* `Writers`, `Writers.Move`, `Writers.Step` : the traffic, without and with foreign writes
* `Versioned` : versions are never reused
* `Writers.Kept` : what the edits leave alone

## Main results

* `Writers.Reachable.faithful` : every edit in the traffic is a run of its program
* `Writers.stored_of_swap` : a write goes over the very copy that was read
* `Writers.Kept.of_edit` : what an edit leaves alone
* `Writers.no_update_lost` : every write is an edit of the stored object, and only edits are written
-/

namespace Reconciler

open Program (Act Runs)

variable {C β : Type}

/-- The object without its version and its finalizers. -/
def Object.bare (o : Object β) : Object β :=
  { o with metadata := { o.metadata with resourceVersion := none, finalizers := none } }

/-- Whatever the server kept, it kept every object under its own key, and it never had two objects
under a key at one version. -/
structure Versioned (history : List (Stored β)) : Prop where
  keyed : ∀ stored ∈ history, stored.Keyed
  fresh : ∀ stored ∈ history, ∀ stored' ∈ history, ∀ k o o', stored k = some o →
    stored' k = some o' → o.version = o'.version → o = o'

theorem Versioned.of_append {history later : List (Stored β)} (h : Versioned (history ++ later)) :
    Versioned history where
  keyed stored hmem := h.keyed stored (List.mem_append_left _ hmem)
  fresh stored hmem stored' hmem' :=
    h.fresh stored (List.mem_append_left _ hmem) stored' (List.mem_append_left _ hmem')

/-- What the server may answer to an act of a client, and what it keeps then. -/
inductive Serves (stored : Stored β) : Act (objectClient β) → Stored β → Prop where
  /-- A request. -/
  | asked {q : ObjectRequest β} {rep : Except Error (Object β)} {stored' : Stored β}
      (h : Truthful stored q rep stored') : Serves stored (.asked q rep) stored'
  /-- A log entry or a measurement. -/
  | signalled (s : Signal) : Serves stored (.signalled s) stored
  /-- A sleep. -/
  | slept (d : Duration) : Serves stored (.slept d) stored
  /-- A look at the clock. -/
  | looked (m : Moment) : Serves stored (.looked m) stored

/-- An edit of a client. -/
structure Writers.Call (C β : Type) where
  /-- The client. -/
  client : C
  /-- The edit. -/
  edit : Edit
  /-- The copy that it was called with. -/
  copy : Object β
  /-- What happened so far: every act, with what the server kept then. -/
  course : List (Act (objectClient β) × Stored β) := []
  /-- What is left to do. -/
  rest : Program (objectClient β) (Except Error Unit)

/-- Clients that edit the objects of a server. -/
structure Writers (C β : Type) where
  /-- What the server keeps. -/
  stored : Stored β
  /-- The edits that began, finished or not. -/
  calls : List (Writers.Call C β) := []
  /-- What the server kept before, oldest first. -/
  past : List (Stored β) := []

namespace Writers

/-- Everything that the server ever kept. -/
def history (w : Writers C β) : List (Stored β) := w.past ++ [w.stored]

variable {clients : C → Finalizers}

/-- One step of the clients. -/
inductive Move (clients : C → Finalizers) : Writers C β → Writers C β → Prop where
  /-- A client begins an edit, with whatever copy of the object. -/
  | begin {w : Writers C β} (i : C) (e : Edit) (o : Object β) :
      Move clients w { w with
        calls := w.calls ++
          [{ client := i, edit := e, copy := o, rest := e.program (clients i) o }] }
  /-- The next act of an edit. -/
  | act {w : Writers C β} {before after : List (Call C β)} {call : Call C β}
      (hcalls : w.calls = before ++ call :: after) {a : Act (objectClient β)}
      {rest : Program (objectClient β) (Except Error Unit)} (h : Program.Step call.rest a rest)
      {stored : Stored β} (hserves : Serves w.stored a stored) :
      Move clients w
        { stored := stored
          calls := before ++
            { call with course := call.course ++ [(a, w.stored)], rest := rest } :: after
          past := w.past ++ [w.stored] }

/-- One step of the traffic. -/
inductive Step (clients : C → Finalizers) : Writers C β → Writers C β → Prop where
  | move {w w' : Writers C β} (h : Move clients w w') : Step clients w w'
  /-- Somebody else writes to the server. -/
  | foreign {w : Writers C β} (stored : Stored β) :
      Step clients w { w with stored := stored, past := w.past ++ [w.stored] }

/-- What the traffic can come to. -/
def Reachable (clients : C → Finalizers) (w : Writers C β) : Prop :=
  ∃ stored, Relation.ReflTransGen (Step clients) { stored := stored } w

/-- What happened in an edit happens in its program, against a server that was truthful and kept at
every act what the history says. -/
structure Call.Faithful (clients : C → Finalizers) (past : List (Stored β)) (call : Call C β) :
    Prop where
  runs : ∀ as r, Runs call.rest as r →
    Runs (call.edit.program (clients call.client) call.copy) (call.course.map Prod.fst ++ as) r
  served : ∀ a stored, (a, stored) ∈ call.course →
    stored ∈ past ∧ ∃ stored', Serves stored a stored'

theorem Call.Faithful.mono {past : List (Stored β)} {call : Call C β}
    (h : call.Faithful clients past) (stored : Stored β) :
    call.Faithful clients (past ++ [stored]) where
  runs := h.runs
  served a kept hmem := (h.served a kept hmem).imp_left (List.mem_append_left _)

theorem Call.Faithful.act {past : List (Stored β)} {call : Call C β}
    (h : call.Faithful clients past) {a : Act (objectClient β)}
    {rest : Program (objectClient β) (Except Error Unit)} (hstep : Program.Step call.rest a rest)
    {stored stored' : Stored β} (hserves : Serves stored a stored') :
    Call.Faithful clients (past ++ [stored])
      { call with course := call.course ++ [(a, stored)], rest := rest } where
  runs as r hruns := by
    simpa using h.runs (a :: as) r (.step hstep hruns)
  served a' kept hmem := by
    rcases List.mem_append.1 hmem with hmem | hmem
    · exact (h.mono stored).served a' kept hmem
    · cases List.mem_singleton.1 hmem
      exact ⟨by simp, stored', hserves⟩

theorem faithful_step {w w' : Writers C β} (hstep : Step clients w w')
    (h : ∀ call ∈ w.calls, call.Faithful clients w.past) :
    ∀ call ∈ w'.calls, call.Faithful clients w'.past := by
  cases hstep with
  | foreign stored =>
    intro call hcall
    exact (h call hcall).mono w.stored
  | move hmove =>
    cases hmove with
    | begin i e o =>
      intro call hcall
      rcases List.mem_append.1 hcall with hcall | hcall
      · exact h call hcall
      · cases List.mem_singleton.1 hcall
        exact ⟨fun as r hruns => hruns, by simp⟩
    | @act before after call₀ hcalls a rest hact stored hserves =>
      rw [hcalls] at h
      intro call hcall
      rcases List.mem_append.1 hcall with hcall | hcall
      · exact (h call (by simp [hcall])).mono w.stored
      rcases List.mem_cons.1 hcall with rfl | hcall
      · exact (h call₀ (by simp)).act hact hserves
      · exact (h call (by simp [hcall])).mono w.stored

theorem Reachable.faithful {w : Writers C β} (hw : Reachable clients w) :
    ∀ call ∈ w.calls, call.Faithful clients w.past := by
  obtain ⟨stored, hrun⟩ := hw
  induction hrun with
  | refl => simp
  | tail _ hstep ih => exact faithful_step hstep ih

/-! ### Writes -/

/-- The object that a write goes over is the copy that was read before. -/
theorem stored_of_swap {w : Writers C β} (hw : Reachable clients w) (hserver : Versioned w.history)
    {call : Call C β} (hcall : call ∈ w.calls) {new old : Object β} {rep : Except Error (Object β)}
    {rest : Program (objectClient β) (Except Error Unit)}
    (hstep : Program.Step call.rest (.asked (.replace new) rep) rest)
    (hold : w.stored new.key = some old) (hversion : old.version = new.version) :
    call.edit.Due (clients call.client).name old ∧
      new = call.edit.apply (clients call.client).name old := by
  have hfaithful := hw.faithful call hcall
  have hruns := hfaithful.runs _ none (.step hstep (.cut rest))
  obtain ⟨earlier, latest, hread, hdue, rfl⟩ := (call.edit.rereads _ _ _ _ hruns).read_of_write rfl
  -- the last act of the edit so far is the read of `latest`
  obtain ⟨kept, hkept⟩ : ∃ kept, (.asked (.get call.copy.metadata.namespaceName call.copy.name)
      (.ok latest), kept) ∈ call.course := by
    have hmem : .asked (.get call.copy.metadata.namespaceName call.copy.name) (.ok latest) ∈
        call.course.map Prod.fst := by simp [hread]
    obtain ⟨⟨a, kept⟩, hmem, rfl⟩ := List.mem_map.1 hmem
    exact ⟨kept, hmem⟩
  obtain ⟨hpast, _, hserves⟩ := hfaithful.served _ kept hkept
  have hkept : kept ∈ w.history := by simp [history, hpast]
  have hnow : w.stored ∈ w.history := by simp [history]
  cases hserves with
  | asked htruthful =>
    cases htruthful with
    | found hfound =>
      rw [Edit.apply_key] at hold
      rw [Edit.apply_version] at hversion
      have hkey := hserver.keyed kept hkept _ _ hfound
      obtain rfl : old = latest :=
        hserver.fresh w.stored hnow kept hkept _ _ _ hold (hkey ▸ hfound) hversion
      exact ⟨hdue, rfl⟩

/-- The edits leave everything of an object alone but its version and their own names among its
finalizers, and a name that was there at most once is there at most once. -/
structure Kept (clients : C → Finalizers) (o o' : Object β) : Prop where
  bare : o'.bare = o.bare
  foreign : ∀ keep : String → Bool, (∀ i, keep (clients i).name = false) →
    o'.finalizers.filter keep = o.finalizers.filter keep
  once : ∀ i, o.finalizers.count (clients i).name ≤ 1 → o'.finalizers.count (clients i).name ≤ 1

theorem Kept.refl (o : Object β) : Kept clients o o :=
  ⟨rfl, fun _ _ => rfl, fun _ h => h⟩

theorem Kept.trans {o₁ o₂ o₃ : Object β} (h : Kept clients o₁ o₂) (h' : Kept clients o₂ o₃) :
    Kept clients o₁ o₃ where
  bare := h'.bare.trans h.bare
  foreign keep hkeep := (h'.foreign keep hkeep).trans (h.foreign keep hkeep)
  once i hi := h'.once i (h.once i hi)

/-- An edit that is due keeps to that. -/
theorem Kept.of_edit {i : C} {e : Edit} {o : Object β} (hdue : e.Due (clients i).name o)
    (version : String) : Kept clients o ((e.apply (clients i).name o).atVersion version) where
  bare := by cases e <;> rfl
  foreign keep hkeep := Edit.filter_apply e (hkeep i) o
  once j hj := by
    show (e.apply _ o).finalizers.count _ ≤ 1
    by_cases hij : (clients j).name = (clients i).name
    · rw [hij]
      exact Edit.count_apply_le hdue
    · rw [Edit.count_apply_of_ne e hij o]
      exact hj

theorem kept_refl (x : Option (Object β)) : Option.Rel (Kept clients) x x := by
  cases x with
  | none => exact .none
  | some o => exact .some (.refl o)

theorem kept_put {stored : Stored β} {o o' : Object β} (hold : stored o'.key = some o)
    (h : Kept clients o o') (k : String) :
    Option.Rel (Kept clients) (stored k) (stored.put o' k) := by
  by_cases hk : k = o'.key
  · rw [hk, hold, Stored.put_key]
    exact .some h
  · rw [Stored.put_of_ne _ hk]
    exact kept_refl _

/-- A move edits what is stored, or leaves it alone. -/
theorem Move.kept {w w' : Writers C β} (hmove : Move clients w w') (hw : Reachable clients w)
    (hserver : Versioned w.history) (k : String) :
    Option.Rel (Kept clients) (w.stored k) (w'.stored k) := by
  cases hmove with
  | begin i e o => exact kept_refl _
  | @act before after call hcalls a rest hact stored hserves =>
    cases hserves with
    | asked htruthful =>
      cases htruthful with
      | found => exact kept_refl _
      | failed => exact kept_refl _
      | @swapped new old hold hversion version rep =>
        obtain ⟨hdue, rfl⟩ := stored_of_swap hw hserver (by simp [hcalls]) hact hold hversion
        -- the copy that is stored has the key of the copy that was submitted
        have hstored : w.stored (Object.atVersion _ version).key = some old := hold
        exact kept_put hstored (.of_edit hdue version) k
    | signalled | slept | looked => exact kept_refl _

/-- The next act of the edit with this number, against a server that never fails. -/
def turn (w : Writers C β) (n : Nat) : Writers C β :=
  match w.calls[n]? with
  | none => w
  | some call =>
    let next (a : Act (objectClient β)) (rest : Program (objectClient β) (Except Error Unit))
        (stored : Stored β) : Writers C β :=
      { stored := stored
        calls := w.calls.set n
          { call with course := call.course ++ [(a, w.stored)], rest := rest }
        past := w.past ++ [w.stored] }
    match call.rest with
    | .done _ | .unfinished => w
    | .signal s p => next (.signalled s) p w.stored
    | .sleep d p => next (.slept d) p w.stored
    | .moment p => next (.looked default) (p default) w.stored
    | .ask q p =>
      let answer := serverAnswer w.stored q
      next (.asked q answer.1) (p answer.1) answer.2

/-- Two clients with names of their own. -/
def pair : Bool → Finalizers
  | true => ⟨"x", ⟨.zero, 2⟩⟩
  | false => ⟨"y", ⟨.zero, 2⟩⟩

/-- A copy of the object that both edit. -/
def shared (version : String) (finalizers : List String) : Object Unit where
  metadata := { name := some "a", resourceVersion := some version, finalizers := some finalizers }
  body := ()

/-- Both begin to put their finalizers on. -/
def contended : Writers Bool Unit where
  stored := .only (shared "1" ["z"])
  calls :=
    [{ client := true, edit := .add, copy := shared "1" ["z"]
       rest := Edit.add.program (pair true) (shared "1" ["z"]) },
      { client := false, edit := .add, copy := shared "1" ["z"]
        rest := Edit.add.program (pair false) (shared "1" ["z"]) }]

/-- Both read, the first writes, and the second meets a conflict and reads again. -/
def reread : Writers Bool Unit := [0, 0, 1, 1, 0, 1, 1, 1, 1].foldl turn contended

end Writers

end Reconciler
