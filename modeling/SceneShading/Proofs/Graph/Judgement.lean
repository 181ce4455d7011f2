import Mathlib.Tactic
import SceneShading.Graph.Builder
import SceneShading.Proofs.Graph.Flow

/-!
# Judging builders

A builder is judged by what it needs and by what it gives (`Serves`): in a sound graph with a flow
where some facts about nodes hold, it leaves a sound graph with a flow where further facts hold. The
judgement also says which of the open variables belong to the builder, and which it leaves open. It
holds whatever else is open: a builder does not touch the variables of the builders that call it. A
builder that leaves nothing open, and to which nothing open belongs, just makes something (`Makes`).

Whatever is found under its name was closed before. That is not true of all names, so the builders
that ask for locals by name are marked: while they work, no variable is open that has such a name
(`IsShared`).
-/

namespace SceneShading

variable {g g' g'' : Graph} {roots own own' opened opened' opened'' : List NodeId} {id : NodeId}
  {α β : Type} {asks : Bool}

/-! ## Facts -/

/-- A fact about a node. -/
inductive NodeFact where
  /-- The node exists. -/
  | node (id : NodeId)
  /-- The node is a variable that is not open. -/
  | reads (id : NodeId)
  /-- The node is a built-in output. -/
  | output (id : NodeId)
  /-- The node is a local with an initial value. -/
  | valued (id : NodeId)

namespace NodeFact

/-- The fact holds of the graph. -/
def Holds (opened : List NodeId) (g : Graph) : NodeFact → Prop
  | node id => id < g.size
  | reads id => (g.declared? id).isSome ∧ id ∉ opened
  | output id => ∃ o, g.kind? id = some (.output o)
  | valued id => ∃ v, g.declared? id = some v ∧ v.cls = .temporary ∧ v.value.isSome

/-- The nodes can be read. -/
def readsAll (ids : List NodeId) : List NodeFact := ids.map reads

@[simp] lemma readsAll_nil : readsAll [] = [] := rfl

@[simp] lemma readsAll_cons (id : NodeId) (ids : List NodeId) :
    readsAll (id :: ids) = reads id :: readsAll ids := rfl

@[simp] lemma readsAll_append (ids ids' : List NodeId) :
    readsAll (ids ++ ids') = readsAll ids ++ readsAll ids' := List.map_append

@[simp] lemma mem_readsAll {ids : List NodeId} : reads id ∈ readsAll ids ↔ id ∈ ids := by
  simp [readsAll]

/-- Fewer nodes are fewer facts. -/
lemma readsAll_subset {ids ids' : List NodeId} (h : ids ⊆ ids') : readsAll ids ⊆ readsAll ids' :=
  List.map_subset _ h

end NodeFact

namespace Graph

/-- The one graph became the other one: nodes stayed what they are, and no older variable was
opened. -/
structure Later (g : Graph) (opened : List NodeId) (g' : Graph) (opened' : List NodeId) : Prop where
  grows : g.Grows g'
  opened : ∀ id ∈ opened', id ∈ opened ∨ g.size ≤ id

/-- Nothing changed. -/
lemma Later.refl (g : Graph) (opened : List NodeId) : Later g opened g opened :=
  ⟨.refl g, fun _ hid => .inl hid⟩

/-- A graph that grows has more nodes. -/
lemma Grows.size_le (h : g.Grows g') : g.size ≤ g'.size := by
  by_contra hlt
  have hnone : g'.kind? g'.size = none := kind?_eq_none_iff.2 le_rfl
  have hsome : g.kind? g'.size ≠ none := fun heq => hlt (kind?_eq_none_iff.1 heq)
  obtain ⟨kind, hkind⟩ := Option.ne_none_iff_exists'.1 hsome
  rw [h _ kind hkind] at hnone
  cases hnone

/-- One change after another. -/
lemma Later.trans (h : Later g opened g' opened') (h' : Later g' opened' g'' opened'') :
    Later g opened g'' opened'' := by
  refine ⟨h.grows.trans h'.grows, fun id hid => ?_⟩
  rcases h'.opened id hid with hid | hid
  · exact h.opened id hid
  · exact .inr (h.grows.size_le.trans hid)

/-- Facts stay true. -/
lemma Later.holds (h : Later g opened g' opened') {fact : NodeFact} (hfact : fact.Holds opened g) :
    fact.Holds opened' g' := by
  cases fact with
  | node id => exact lt_of_lt_of_le hfact h.grows.size_le
  | reads id =>
    obtain ⟨hsome, hclosed⟩ := hfact
    obtain ⟨v, hv⟩ := Option.isSome_iff_exists.1 hsome
    refine ⟨by rw [h.grows.declared? hv, Option.isSome_some], fun hmem => ?_⟩
    rcases h.opened id hmem with hmem | hle
    · exact hclosed hmem
    · exact absurd (lt_size_of_declared? hv) (not_lt.2 hle)
  | output id =>
    obtain ⟨o, ho⟩ := hfact
    exact ⟨o, h.grows _ _ ho⟩
  | valued id =>
    obtain ⟨v, hv, hvalue⟩ := hfact
    exact ⟨v, h.grows.declared? hv, hvalue⟩

/-- The graph is sound and has a flow, and the facts hold of it. If builders may ask for shared names,
then no open variable has one. -/
structure Meets (asks : Bool) (roots opened : List NodeId) (facts : List NodeFact) (g : Graph) :
    Prop where
  sound : g.Sound roots
  flow : g.Flow roots opened
  unshared : asks = true → ∀ id ∈ opened, ∀ v, g.declared? id = some v → ¬IsShared v.name
  holds : ∀ fact ∈ facts, fact.Holds opened g

/-- Open variables have no shared names either when the graph has grown. -/
lemma Meets.unshared_of_grows {facts : List NodeFact} (h : g.Meets asks roots opened facts)
    (hgrows : g.Grows g') (hasks : asks = true) (hid : id ∈ opened) {v : Variable}
    (hv : g'.declared? id = some v) : ¬IsShared v.name := by
  obtain ⟨w, hw, -⟩ := h.flow.declared id hid
  rw [hgrows.declared? hw] at hv
  cases hv
  exact h.unshared hasks id hid v hw

/-- The order in which variables are open does not matter. -/
lemma Meets.perm {facts : List NodeFact} (h : g.Meets asks roots opened facts)
    (hperm : opened.Perm opened') : g.Meets asks roots opened' facts := by
  have hlater : g.Later opened g opened' := ⟨.refl g, fun id hid => .inl (hperm.mem_iff.2 hid)⟩
  exact ⟨h.sound, h.flow.perm hperm, fun hasks id hid => h.unshared hasks id (hperm.mem_iff.2 hid),
    fun fact hfact => hlater.holds (h.holds fact hfact)⟩

/-- The graph without nodes needs nothing. -/
lemma meets_ofStage (asks : Bool) (roots : List NodeId) (stage : Stage) :
    (ofStage stage).Meets asks roots [] [] :=
  ⟨sound_ofStage roots stage, flow_ofStage roots stage, by simp, by simp⟩

end Graph

/-! ## Answers -/

/-- The answer of the builder has the property, whatever the graph. -/
def Answers (b : Builder α) (p : α → Prop) : Prop := ∀ g, p (b g).1

namespace Answers

variable {b : Builder α} {f : α → Builder β} {p : α → Prop} {q : β → Prop}

/-- An answer without any request. -/
lemma pure {a : β} (h : q a) : Answers (Pure.pure a : Builder β) q := fun _ => h

/-- One builder after another. -/
lemma bind (hb : Answers b p) (hf : ∀ a, p a → Answers (f a) q) : Answers (b >>= f) q :=
  fun g => hf (b g).1 (hb g) (b g).2

/-- Nothing is asked of the answer. -/
lemma any (b : Builder α) : Answers b fun _ => True := fun _ => trivial

end Answers

/-- What is registered under a name is the answer, or else what a builder makes. -/
lemma Builder.orElse_eq (name : String) (make : Builder NodeId) (g : Graph) :
    Builder.orElse name make g =
      match g.find? name with
      | some id => (id, g)
      | none => make g := by
  change (match g.find? name with
    | some id => (Pure.pure id : Builder NodeId)
    | none => make) g = _
  cases g.find? name <;> rfl

/-! ## Judgements -/

/-- In every graph where the needs are met, the builder leaves a graph where what it gives is met.
Its own open variables are among the open ones before, and those that it keeps open afterwards. -/
def Serves (asks : Bool) (roots : List NodeId) (needs : List NodeFact) (own : List NodeId)
    (b : Builder α) (gives : α → List NodeFact) (keeps : α → List NodeId) : Prop :=
  ∀ g rest, g.Meets asks roots (own ++ rest) needs →
    (b g).2.Meets asks roots (keeps (b g).1 ++ rest) (gives (b g).1) ∧
      g.Later (own ++ rest) (b g).2 (keeps (b g).1 ++ rest)

/-- The builder gives something when its needs are met, and leaves nothing open. -/
abbrev Makes (asks : Bool) (roots : List NodeId) (needs : List NodeFact) (b : Builder α)
    (gives : α → List NodeFact) : Prop := Serves asks roots needs [] b gives fun _ => []

namespace Serves

open NodeFact

variable {needs : List NodeFact} {b : Builder α} {f : α → Builder β}
  {mid : α → List NodeFact} {gives : β → List NodeFact} {passes : α → List NodeId}
  {keeps : β → List NodeId}

/-- An answer without any request. -/
lemma pure {a : β} (hgives : gives a ⊆ needs) (hkeeps : keeps a = own) :
    Serves asks roots needs own (Pure.pure a : Builder β) gives keeps := by
  intro g rest hmeets
  have hsame : keeps ((Pure.pure a : Builder β) g).1 ++ rest = own ++ rest :=
    congrArg (· ++ rest) hkeeps
  rw [hsame]
  exact ⟨⟨hmeets.sound, hmeets.flow, hmeets.unshared,
    fun fact hfact => hmeets.holds fact (hgives hfact)⟩, .refl g _⟩

/-- One builder after another: what the first one gives is there for the second one, with all that
was there before, with what the first one leaves open, and with what is known about its answer. -/
lemma bindOpen {p : α → Prop} (hb : Serves asks roots needs own b mid passes) (hanswer : Answers b p)
    (hf : ∀ a, p a → Serves asks roots (mid a ++ needs) (passes a ++ own') (f a) gives keeps) :
    Serves asks roots needs (own ++ own') (b >>= f) gives keeps := by
  intro g rest hmeets
  rw [List.append_assoc] at hmeets ⊢
  obtain ⟨hmid, hlater⟩ := hb g (own' ++ rest) hmeets
  rw [← List.append_assoc (passes (b g).1)] at hmid hlater
  obtain ⟨hlast, hlater'⟩ := hf (b g).1 (hanswer g) (b g).2 rest
    ⟨hmid.sound, hmid.flow, hmid.unshared, fun fact hfact => by
      rcases List.mem_append.1 hfact with hfact | hfact
      · exact hmid.holds fact hfact
      · exact hlater.holds (hmeets.holds fact hfact)⟩
  exact ⟨hlast, hlater.trans hlater'⟩

/-- One builder after another, when the first one makes something, and with what is known about its
answer. -/
lemma bindAnswer {p : α → Prop} (hb : Makes asks roots needs b mid) (hanswer : Answers b p)
    (hf : ∀ a, p a → Serves asks roots (mid a ++ needs) own (f a) gives keeps) :
    Serves asks roots needs own (b >>= f) gives keeps := bindOpen hb hanswer hf

/-- One builder after another, when the first one makes something. -/
lemma bind (hb : Makes asks roots needs b mid)
    (hf : ∀ a, Serves asks roots (mid a ++ needs) own (f a) gives keeps) :
    Serves asks roots needs own (b >>= f) gives keeps := bindAnswer hb (.any b) fun a _ => hf a

/-- One builder after another, when the first one opens a variable. -/
lemma bindLocal {b : Builder NodeId} {mid : NodeId → List NodeFact} {f : NodeId → Builder β}
    (hb : Serves asks roots needs [] b mid fun id => [id])
    (hf : ∀ id, Serves asks roots (mid id ++ needs) (id :: own) (f id) gives keeps) :
    Serves asks roots needs own (b >>= f) gives keeps := bindOpen hb (.any b) fun id _ => hf id

/-- One builder after another, when the first one may open a variable, with what is known about
whether it does. -/
lemma bindOption {b : Builder (Option NodeId)} {mid : Option NodeId → List NodeFact}
    {f : Option NodeId → Builder β} {p : Option NodeId → Prop}
    (hb : Serves asks roots needs [] b mid fun id => id.toList) (hanswer : Answers b p)
    (hf : ∀ id, p id → Serves asks roots (mid id ++ needs) (id.toList ++ own) (f id) gives keeps) :
    Serves asks roots needs own (b >>= f) gives keeps := bindOpen hb hanswer hf

/-- One builder after another, when the variable that was opened last belongs to the first one. -/
lemma bindFirst (hb : Serves asks roots needs [id] b mid passes)
    (hf : ∀ a, Serves asks roots (mid a ++ needs) (passes a ++ own) (f a) gives keeps) :
    Serves asks roots needs (id :: own) (b >>= f) gives keeps := bindOpen hb (.any b) fun a _ => hf a

/-- One builder after another, when all that is open belongs to both. -/
lemma bindAll (hb : Serves asks roots needs own b mid passes)
    (hf : ∀ a, Serves asks roots (mid a ++ needs) (passes a) (f a) gives keeps) :
    Serves asks roots needs own (b >>= f) gives keeps := by
  have hall : Serves asks roots needs (own ++ []) (b >>= f) gives keeps :=
    bindOpen hb (.any b) fun a _ => (List.append_nil (passes a)).symm ▸ hf a
  rwa [List.append_nil] at hall

/-- A builder that leaves nothing open and asks for no shared names may stand where others ask. -/
lemma lower (hb : Serves false roots needs own b mid fun _ => []) :
    Serves asks roots needs own b mid fun _ => [] := by
  intro g rest hmeets
  obtain ⟨hmade, hlater⟩ := hb g rest ⟨hmeets.sound, hmeets.flow, nofun, hmeets.holds⟩
  refine ⟨⟨hmade.sound, hmade.flow, fun hasks id hid v hv => ?_, hmade.holds⟩, hlater⟩
  exact hmeets.unshared_of_grows hlater.grows hasks (List.mem_append_right own hid) hv

/-- The order in which variables are open does not matter. -/
lemma perm {passes' : α → List NodeId} (hb : Serves asks roots needs own' b mid passes')
    (hown : own.Perm own') (hpasses : ∀ a, (passes' a).Perm (passes a)) :
    Serves asks roots needs own b mid passes := by
  intro g rest hmeets
  have hbefore : (own ++ rest).Perm (own' ++ rest) := hown.append_right rest
  have hafter : (passes' (b g).1 ++ rest).Perm (passes (b g).1 ++ rest) :=
    (hpasses _).append_right rest
  obtain ⟨hmade, hlater⟩ := hb g rest (hmeets.perm hbefore)
  refine ⟨hmade.perm hafter, hlater.grows, fun id hid => ?_⟩
  rw [hbefore.mem_iff]
  exact hlater.opened id (hafter.mem_iff.2 hid)

/-- A builder leaves alone what is not its own. -/
lemma frame (hb : Serves asks roots needs own b mid passes) (others : List NodeId) :
    Serves asks roots needs (own ++ others) b mid fun a => passes a ++ others := by
  intro g rest hmeets
  rw [List.append_assoc] at hmeets
  rw [List.append_assoc, List.append_assoc]
  exact hb g (others ++ rest) hmeets

/-- A local with an initial value can be closed at any time. -/
lemma close (hvalued : .valued id ∈ needs)
    (hb : Serves asks roots (.reads id :: needs) own b mid passes) :
    Serves asks roots needs (id :: own) b mid passes := by
  intro g rest hmeets
  obtain ⟨v, hv, hcls, hvalue⟩ := hmeets.holds _ hvalued
  have hclosed : g.Flow roots (own ++ rest) := by
    refine hmeets.flow.close fun w hw hdue => ?_
    rw [hv] at hw
    cases hw
    rcases hdue with ⟨-, hnone⟩ | ⟨hvarying, -⟩
    · rw [hnone] at hvalue
      cases hvalue
    · rw [hcls] at hvarying
      cases hvarying
  have hback : g.Later (id :: own ++ rest) g (own ++ rest) :=
    ⟨.refl g, fun other hother => .inl (List.mem_cons_of_mem _ hother)⟩
  have hread : (NodeFact.reads id).Holds (own ++ rest) g := by
    refine ⟨by rw [hv, Option.isSome_some], ?_⟩
    exact (List.nodup_cons.1 hmeets.flow.nodup).1
  obtain ⟨hmade, hlater⟩ := hb g rest ⟨hmeets.sound, hclosed,
    fun hasks other hother => hmeets.unshared hasks other (List.mem_cons_of_mem _ hother),
    fun fact hfact => by
      rcases List.mem_cons.1 hfact with rfl | hfact
      · exact hread
      · exact hback.holds (hmeets.holds fact hfact)⟩
  exact ⟨hmade, hback.trans hlater⟩

end Serves

end SceneShading
