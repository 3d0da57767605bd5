import ExprLang.Proofs.SharedFrames

/-!
# Environments persist

Whatever is done with other environments, an environment keeps the bindings that were made on its own
line of extensions.  This holds of environments that are values of their own, and it holds just as well
where they share their frames and frames are given back on the way.

* `Workspace.Admissible` — every operation works on an environment that there is.
* `Workspace.Line` — the bindings that were made on the way to an environment, told from the
  operations alone.
* `Workspace.Shows` — an environment has these bindings, however one looks at it.
* `Workspace.Follows` — a workspace and one on shared frames are where the operations led.

Principal results: `Follows.make`, `Follows.drop` — what one operation keeps;
`exists_follows` — what all of them keep; `environments_persist`.
-/

set_option autoImplicit false

namespace ExprLang

variable {α : Type}

namespace Workspace

/-! ## Lines of extensions -/

/-- What an operation adds to an environment when it makes a new one of it. -/
def Operation.entries? : Operation α → Option (List (Name × α))
  | .extend entries => some entries
  | .copy => some []
  | .extendNumbered stem count payload => some (numberedEntries stem count payload)
  | .drop | .find _ | .bindings | .isEmpty | .text => none

/-- For each new environment in order, which one it was made of and what was added. -/
def origins (steps : List (Nat × Operation α)) : List (Nat × List (Name × α)) :=
  steps.filterMap fun step => step.2.entries?.map fun entries => (step.1, entries)

/-- An environment was made and not dropped. -/
def Live (steps : List (Nat × Operation α)) (number : Nat) : Prop :=
  number ≤ (origins steps).length ∧ (number, Operation.drop) ∉ steps

/-- Any operations in any order, as long as each has an environment to work on. -/
inductive Admissible : List (Nat × Operation α) → Prop
  | nil : Admissible []
  | snoc {steps : List (Nat × Operation α)} {number : Nat} (op : Operation α) :
      Admissible steps → Live steps number → Admissible (steps ++ [(number, op)])

/-- All bindings made on the way to an environment, latest first. -/
inductive Line (steps : List (Nat × Operation α)) : Nat → List (Name × α) → Prop
  | first : Line steps 0 []
  | made {k source : Nat} {entries bindings : List (Name × α)} :
      (origins steps)[k]? = some (source, entries) → Line steps source bindings →
      Line steps (k + 1) (entries.reverse ++ bindings)

theorem Line.unique {steps : List (Nat × Operation α)} {number : Nat}
    {bindings others : List (Name × α)} (h : Line steps number bindings)
    (h' : Line steps number others) : bindings = others := by
  induction h generalizing others with
  | first =>
    cases h'
    rfl
  | made hk _ ih =>
    cases h' with
    | made hk' hsource =>
      cases hk.symm.trans hk'
      rw [ih hsource]

theorem origins_append (steps later : List (Nat × Operation α)) :
    origins (steps ++ later) = origins steps ++ origins later :=
  List.filterMap_append

/-- What comes later does not change how an environment was made. -/
theorem Line.append {steps : List (Nat × Operation α)} {number : Nat} {bindings : List (Name × α)}
    (h : Line steps number bindings) (later : List (Nat × Operation α)) :
    Line (steps ++ later) number bindings := by
  induction h with
  | first => exact .first
  | @made k _ _ _ hk _ ih =>
    refine .made ?_ ih
    obtain ⟨hlt, -⟩ := List.getElem?_eq_some_iff.mp hk
    rw [origins_append, List.getElem?_append_left hlt, hk]

theorem Live.of_append {steps later : List (Nat × Operation α)} {number : Nat}
    (h : Live (steps ++ later) number) (hle : number ≤ (origins steps).length) :
    Live steps number :=
  ⟨hle, fun hmem => h.2 (List.mem_append_left later hmem)⟩

section Steps

variable {steps : List (Nat × Operation α)} {number : Nat} {op : Operation α}
  {entries : List (Name × α)}

theorem origins_of_entries (hop : op.entries? = some entries) :
    origins [(number, op)] = [(number, entries)] := by
  simp [origins, hop]

theorem origins_of_none (hop : op.entries? = none) : origins [(number, op)] = [] := by
  simp [origins, hop]

end Steps

/-! ## One operation -/

variable {w : Workspace α} {s : SharedWorkspace α}

/-- A workspace and one on shared frames are where the operations led. -/
structure Follows (w : Workspace α) (s : SharedWorkspace α) (steps : List (Nat × Operation α)) :
    Prop where
  size : w.slots.size = (origins steps).length + 1
  shared_size : s.slots.size = w.slots.size
  counts : s.frames.Counts (referrers SharedEnv.head s.slots)
  envs (number : Nat) : Live steps number → ∃ env shared,
    w.env? number = some env ∧ s.env? number = some shared ∧
      Line steps number env.bindings ∧ s.frames.Chain shared.head env.bindings

theorem follows_initial : Follows (initial : Workspace α) .initial [] where
  size := rfl
  shared_size := rfl
  counts k := by
    simp [Frames.owners, Frames.frame?, SharedWorkspace.initial, Frames.children, referrers]
  envs number h := by
    obtain rfl : number = 0 := Nat.le_zero.mp h.1
    exact ⟨Env.empty, ⟨none⟩, rfl, rfl, .first, .nil⟩

/-- What an operation does, in both workspaces alike. -/
theorem step_cases (payloadText : α → String) {number : Nat} {env : Env α} {shared : SharedEnv}
    (hw : w.env? number = some env) (hs : s.env? number = some shared) (op : Operation α) :
    (∃ entries, op.entries? = some entries ∧
      w.step payloadText number op = some (w.add (env.bindAll entries)) ∧
      s.step number op = some (s.make shared entries)) ∨
    (op = .drop ∧
      w.step payloadText number op = some (.dropped, ⟨w.slots.setIfInBounds number none⟩) ∧
      s.step number op =
        some ⟨s.frames.release shared.head, s.slots.setIfInBounds number none⟩) ∨
    (op.entries? = none ∧
      ∃ answer, w.step payloadText number op = some (answer, w) ∧ s.step number op = some s) := by
  rw [step, hw, SharedWorkspace.step, hs]
  cases op with
  | extend entries => exact .inl ⟨entries, rfl, rfl, rfl⟩
  | copy => exact .inl ⟨[], rfl, rfl, rfl⟩
  | extendNumbered stem count payload => exact .inl ⟨_, rfl, rfl, rfl⟩
  | drop => exact .inr (.inl ⟨rfl, rfl, rfl⟩)
  | find x =>
    refine .inr (.inr ⟨rfl, ?_⟩)
    rw [Option.map_some, apply]
    split
    · exact ⟨_, rfl, rfl⟩
    · exact ⟨_, rfl, rfl⟩
  | bindings => exact .inr (.inr ⟨rfl, _, rfl, rfl⟩)
  | isEmpty => exact .inr (.inr ⟨rfl, _, rfl, rfl⟩)
  | text => exact .inr (.inr ⟨rfl, _, rfl, rfl⟩)

section Operations

variable {steps : List (Nat × Operation α)} {number : Nat} {env : Env α} {shared : SharedEnv}

/-- An environment that was there before is followed on if both workspaces show it as before. -/
theorem Follows.keep {later : List (Nat × Operation α)} {w' : Workspace α}
    {s' : SharedWorkspace α} (h : Follows w s steps) (hlive : Live steps number)
    (hw : w'.env? number = w.env? number) (hs : s'.env? number = s.env? number)
    (hkeeps : ∀ shared bindings, s.env? number = some shared →
      s.frames.Chain shared.head bindings → s'.frames.Chain shared.head bindings) :
    ∃ env shared, w'.env? number = some env ∧ s'.env? number = some shared ∧
      Line (steps ++ later) number env.bindings ∧ s'.frames.Chain shared.head env.bindings := by
  obtain ⟨env, shared, henv, hshared, hline, hchain⟩ := h.envs number hlive
  exact ⟨env, shared, hw.trans henv, hs.trans hshared, hline.append later,
    hkeeps shared _ hshared hchain⟩

/-- **A new environment** has the new bindings in front of those of the one it was made of. -/
theorem Follows.make {op : Operation α} {entries : List (Name × α)} (h : Follows w s steps)
    (hop : op.entries? = some entries) (hline : Line steps number env.bindings)
    (hchain : s.frames.Chain shared.head env.bindings) :
    Follows (w.add (env.bindAll entries)).2 (s.make shared entries) (steps ++ [(number, op)]) := by
  have horigins : origins (steps ++ [(number, op)]) = origins steps ++ [(number, entries)] := by
    rw [origins_append, origins_of_entries hop]
  obtain ⟨hcounts, hnew, hkeeps⟩ :=
    (h.counts.retain hchain).extendAll (hchain.retain shared.head) entries
  have hslots : referrers SharedEnv.head (s.make shared entries).slots =
      withRef (referrers SharedEnv.head s.slots)
        ((s.frames.retain shared.head).extendAll shared.head entries).2 := referrers_push _ _
  refine ⟨?_, ?_, ?_, fun number' hlive => ?_⟩
  · rw [horigins, List.length_append, add, Array.size_push, h.size]
    rfl
  · rw [SharedWorkspace.make, add, Array.size_push, Array.size_push, h.shared_size]
  · rw [hslots]
    exact hcounts
  have hw : ∀ j, (w.add (env.bindAll entries)).2.env? j =
      if j = w.slots.size then some (env.bindAll entries) else w.env? j := entry_push _ _
  have hs : ∀ j, (s.make shared entries).env? j =
      if j = w.slots.size then
        some ⟨((s.frames.retain shared.head).extendAll shared.head entries).2⟩
      else s.env? j := by
    rw [← h.shared_size]
    exact entry_push _ _
  -- an old number shows what it showed before, and the last one is that of the new environment
  by_cases hle : number' ≤ (origins steps).length
  · have hne : number' ≠ w.slots.size := by
      rw [h.size]
      omega
    refine h.keep (hlive.of_append hle) ((hw number').trans (if_neg hne))
      ((hs number').trans (if_neg hne)) fun other bindings hother hold => ?_
    exact hkeeps _ _ (fun i hi => referrers_pos hother hi) (hold.retain shared.head)
  · have hlast : number' = w.slots.size := by
      have hbound := hlive.1
      rw [horigins, List.length_append, List.length_singleton] at hbound
      rw [h.size]
      omega
    refine ⟨_, _, (hw number').trans (if_pos hlast), (hs number').trans (if_pos hlast), ?_, ?_⟩
    · rw [Env.bindings_bindAll, hlast, h.size]
      refine .made ?_ (hline.append _)
      rw [horigins, List.getElem?_concat_length]
    · rw [Env.bindings_bindAll]
      exact hnew

/-- **Dropping an environment** takes no frame from another one. -/
theorem Follows.drop (h : Follows w s steps) (hshared : s.env? number = some shared)
    (henv : w.env? number = some env) :
    Follows ⟨w.slots.setIfInBounds number none⟩
      ⟨s.frames.release shared.head, s.slots.setIfInBounds number none⟩
      (steps ++ [(number, .drop)]) := by
  have horigins : origins (steps ++ [(number, .drop)]) = origins steps := by
    rw [origins_append, origins_of_none rfl, List.append_nil]
  have hslots : withRef (referrers SharedEnv.head (s.slots.setIfInBounds number none)) shared.head =
      referrers SharedEnv.head s.slots := withRef_referrers_setIfInBounds hshared none
  -- the references are those of the other environments and the one that is given up
  have hcounts := h.counts
  rw [← hslots] at hcounts
  obtain ⟨hreleased, hkeeps⟩ := hcounts.release
  refine ⟨?_, ?_, hreleased, fun number' hlive => ?_⟩
  · rw [horigins, Array.size_setIfInBounds, h.size]
  · rw [Array.size_setIfInBounds, Array.size_setIfInBounds, h.shared_size]
  have hne : number' ≠ number := by
    rintro rfl
    exact hlive.2 (List.mem_append_right steps (List.mem_singleton.mpr rfl))
  have hs : (s.slots.setIfInBounds number none)[number']?.join = s.env? number' := by
    rw [entry_setIfInBounds hshared, if_neg hne]
    rfl
  refine h.keep (hlive.of_append (horigins ▸ hlive.1)) ?_ hs fun other bindings hother hold => ?_
  · rw [env?, entry_setIfInBounds henv, if_neg hne]
    rfl
  · exact hkeeps _ _ (fun i hi => referrers_pos (hs.trans hother) hi) hold

/-- Looking at an environment changes nothing. -/
theorem Follows.look {op : Operation α} (h : Follows w s steps) (hop : op.entries? = none) :
    Follows w s (steps ++ [(number, op)]) := by
  have horigins : origins (steps ++ [(number, op)]) = origins steps := by
    rw [origins_append, origins_of_none hop, List.append_nil]
  refine ⟨horigins ▸ h.size, h.shared_size, h.counts, fun number' hlive => ?_⟩
  exact h.keep (hlive.of_append (horigins ▸ hlive.1)) rfl rfl fun _ _ _ hold => hold

end Operations

/-! ## All operations -/

theorem runFrom_concat {payloadText : α → String} {w' w'' : Workspace α}
    {steps : List (Nat × Operation α)} {number : Nat} {op : Operation α}
    {answers : List (Answer α)} {answer : Answer α}
    (h : w.runFrom payloadText steps = some (answers, w'))
    (hstep : w'.step payloadText number op = some (answer, w'')) :
    w.runFrom payloadText (steps ++ [(number, op)]) = some (answers ++ [answer], w'') := by
  induction steps generalizing w answers with
  | nil =>
    cases h
    rw [List.nil_append, runFrom, hstep]
    rfl
  | cons first steps ih =>
    obtain ⟨⟨_, w₁⟩, hfirst, h⟩ := Option.bind_eq_some_iff.mp h
    obtain ⟨⟨rest, _⟩, hrest, h⟩ := Option.bind_eq_some_iff.mp h
    cases h
    exact Option.bind_eq_some_iff.mpr ⟨_, hfirst, Option.bind_eq_some_iff.mpr ⟨_, ih hrest, rfl⟩⟩

/-- **Admissible operations can be carried out**, and both workspaces follow them. -/
theorem exists_follows (payloadText : α → String) {steps : List (Nat × Operation α)}
    (h : Admissible steps) : ∃ answers w s, run payloadText steps = some (answers, w) ∧
      SharedWorkspace.run steps = some s ∧ Follows w s steps := by
  induction h with
  | nil => exact ⟨[], initial, .initial, rfl, rfl, follows_initial⟩
  | @snoc steps number op _ hlive ih =>
    obtain ⟨answers, w, s, hw, hs, hfollows⟩ := ih
    obtain ⟨env, shared, henv, hshared, hline, hchain⟩ := hfollows.envs number hlive
    have hshare : SharedWorkspace.run (steps ++ [(number, op)]) = s.step number op := by
      rw [SharedWorkspace.run, List.foldlM_append, ← SharedWorkspace.run, hs]
      simp
    rw [hshare]
    obtain ⟨entries, hop, hstep, hstep'⟩ | ⟨rfl, hstep, hstep'⟩ | ⟨hop, answer, hstep, hstep'⟩ :=
      step_cases payloadText henv hshared op
    · exact ⟨_, _, _, runFrom_concat hw hstep, hstep', hfollows.make hop hline hchain⟩
    · exact ⟨_, _, _, runFrom_concat hw hstep, hstep', hfollows.drop hshared henv⟩
    · exact ⟨_, _, _, runFrom_concat hw hstep, hstep', hfollows.look hop⟩

/-! ## What an environment shows -/

/-- An environment has these bindings, however one looks at it; and so it has where the frames are
shared. -/
structure Shows (payloadText : α → String) (w : Workspace α) (s : SharedWorkspace α) (number : Nat)
    (bindings : List (Name × α)) : Prop where
  iterated : w.step payloadText number .bindings = some (.bindings bindings, w)
  found (x : Name) (a : α) : w.step payloadText number (.find x) = some (.found a, w) ↔
    ∃ later earlier, bindings = later ++ (x, a) :: earlier ∧ x ∉ later.map Prod.fst
  unbound (x : Name) : w.step payloadText number (.find x) = some (.unbound x, w) ↔
    x ∉ bindings.map Prod.fst
  empty : ∃ b, w.step payloadText number .isEmpty = some (.isEmpty b, w) ∧
    (b = true ↔ bindings = [])
  shared : ∃ env, s.env? number = some env ∧ (env.head = none ↔ bindings = []) ∧
    ∀ others, s.frames.Chain env.head others ↔ others = bindings

theorem unnamed_iff {x : Name} {bindings : List (Name × α)} :
    (∀ entry ∈ bindings, (x != entry.1) = true) ↔ x ∉ bindings.map Prod.fst := by
  simp only [bne_iff_ne, List.mem_map, not_exists, not_and]
  exact forall₂_congr fun entry _ => ne_comm

theorem shows_of_bindings (payloadText : α → String) {number : Nat} {env : Env α}
    {shared : SharedEnv} (hw : w.env? number = some env) (hs : s.env? number = some shared)
    (hchain : s.frames.Chain shared.head env.bindings) :
    w.Shows payloadText s number env.bindings := by
  have hfind : ∀ x, w.step payloadText number (.find x) =
      some (w.apply payloadText number env (.find x)) := fun x => by rw [step, hw]; rfl
  refine ⟨?_, fun x a => ?_, fun x => ?_, ⟨env.isEmpty, ?_, List.isEmpty_iff⟩,
    ⟨shared, hs, hchain.head_eq_none_iff, fun others => ⟨fun h => h.unique hchain, ?_⟩⟩⟩
  · rw [step, hw]
    rfl
  · have hfirst := List.lookup_eq_some_iff (k := x) (l := env.bindings) (b := a)
    simp only [unnamed_iff] at hfirst
    rw [hfind, apply, ← hfirst, ← Env.find?]
    cases env.find? x <;> simp
  · rw [hfind, apply, ← unnamed_iff, ← List.lookup_eq_none_iff, ← Env.find?]
    cases env.find? x <;> simp
  · rw [step, hw]
    rfl
  · rintro rfl
    exact hchain

/-- **Environments persist**: whatever operations are carried out, each environment that was not
dropped has the bindings of its own line, and it still has them after any operations that follow. -/
theorem environments_persist (payloadText : α → String) {steps : List (Nat × Operation α)}
    {number : Nat} (h : Admissible steps) (hlive : Live steps number) :
    ∃ bindings, Line steps number bindings ∧
      ∀ later, Admissible (steps ++ later) → Live (steps ++ later) number →
        ∃ answers w s, run payloadText (steps ++ later) = some (answers, w) ∧
          SharedWorkspace.run (steps ++ later) = some s ∧
          w.Shows payloadText s number bindings := by
  obtain ⟨_, _, _, _, _, hfollows⟩ := exists_follows payloadText h
  obtain ⟨env, _, _, _, hline, _⟩ := hfollows.envs number hlive
  refine ⟨env.bindings, hline, fun later hlater hstill => ?_⟩
  obtain ⟨answers, w, s, hw, hs, hfollows⟩ := exists_follows payloadText hlater
  obtain ⟨env', _, henv, hshared, hline', hchain⟩ := hfollows.envs number hstill
  rw [(hline.append later).unique hline']
  exact ⟨answers, w, s, hw, hs, shows_of_bindings payloadText henv hshared hchain⟩

/-- Two environments made of one parent, and a copy of the second. -/
def siblings : List (Nat × Operation Nat) :=
  [(0, .extend [("a", 1)]), (1, .extend [("b", 2)]), (1, .extend [("b", 3), ("a", 4)]), (3, .copy)]

/-- The parent, the other sibling and the copy are dropped, and there is a new child. -/
def siblingsLeft : List (Nat × Operation Nat) :=
  [(1, .drop), (3, .extend [("b", 5)]), (2, .drop), (0, .drop), (4, .drop)]

theorem environments_persist_siblings :
    Admissible siblings ∧ Live siblings 3 ∧
      ∃ answers w s, run toString (siblings ++ siblingsLeft) = some (answers, w) ∧
        SharedWorkspace.run (siblings ++ siblingsLeft) = some s ∧
        w.Shows toString s 3 [("a", 4), ("b", 3), ("a", 1)] := by
  have hlive : Live siblings 3 := ⟨by decide, by simp [siblings]⟩
  have h : Admissible siblings :=
    (((Admissible.nil.snoc _ ⟨by decide, by simp⟩).snoc _ ⟨by decide, by simp⟩).snoc _
      ⟨by decide, by simp⟩).snoc _ ⟨by decide, by simp⟩
  have hlater : Admissible (siblings ++ siblingsLeft) :=
    ((((h.snoc _ ⟨by decide, by simp [siblings]⟩).snoc _ ⟨by decide, by simp [siblings]⟩).snoc _
      ⟨by decide, by simp [siblings]⟩).snoc _ ⟨by decide, by simp [siblings]⟩).snoc _
      ⟨by decide, by simp [siblings]⟩
  obtain ⟨bindings, hline, hshows⟩ := environments_persist toString h hlive
  have hbindings : Line siblings 3 ([("b", 3), ("a", 4)].reverse ++ ([("a", 1)].reverse ++ [])) :=
    .made rfl (.made rfl .first)
  obtain rfl := hbindings.unique hline
  exact ⟨h, hlive, hshows _ hlater ⟨by decide, by simp [siblings, siblingsLeft]⟩⟩

end Workspace

end ExprLang
