import Mathlib.Data.List.Basic

/-!
Items of which only the key items stand alone. Any other is built on all the items
before it, back to a key item of its own stream, so a receiver can use it only if
it has got all of these.
-/

namespace EvertyDesk

/-- What a chain of items is read from: which items stand alone, which have been
sent, and the stream that each belongs to. -/
structure Chain (Item Stream : Type*) where
  key : Item → Bool
  sent : Item → Bool
  stream : Item → Stream

namespace Chain

variable {Item Stream : Type*} (c : Chain Item Stream)

/-- The items made last reach back to a key item of the stream, and all of them
were sent. The last item comes first. -/
def Whole (stream : Stream) (items : List Item) : Prop :=
  ∃ since key before, items = since ++ key :: before ∧ c.key key = true ∧
    c.stream key = stream ∧ ∀ item ∈ key :: since, c.sent item = true

/-- Whatever was sent can be used. -/
def Kept (items : List Item) : Prop :=
  ∀ later item earlier, items = later ++ item :: earlier →
    c.sent item = true → c.key item = false → c.Whole (c.stream item) earlier

variable {c} {stream : Stream} {item : Item} {items : List Item}

theorem whole_of_key (hkey : c.key item = true) (hsent : c.sent item = true) :
    c.Whole (c.stream item) (item :: items) := by
  refine ⟨[], item, items, rfl, hkey, rfl, ?_⟩
  intro other member
  exact List.mem_singleton.mp member ▸ hsent

theorem Whole.cons (h : c.Whole stream items) (hsent : c.sent item = true) :
    c.Whole stream (item :: items) := by
  obtain ⟨since, key, before, rfl, hkey, hstream, hall⟩ := h
  refine ⟨item :: since, key, before, rfl, hkey, hstream, ?_⟩
  intro other member
  rcases List.mem_cons.mp member with rfl | hsince
  · exact hall other List.mem_cons_self
  · rcases List.mem_cons.mp hsince with rfl | hsince
    · exact hsent
    · exact hall other (List.mem_cons_of_mem _ hsince)

theorem Whole.sent_head (h : c.Whole stream (item :: items)) : c.sent item = true := by
  obtain ⟨since, key, before, hsplit, _, _, hall⟩ := h
  cases since with
  | nil =>
      obtain ⟨rfl, rfl⟩ := List.cons.inj hsplit
      exact hall item List.mem_cons_self
  | cons first since =>
      obtain ⟨rfl, rfl⟩ := List.cons.inj hsplit
      exact hall item (List.mem_cons_of_mem _ List.mem_cons_self)

theorem kept_nil : c.Kept [] := by
  intro later item earlier hsplit
  simp at hsplit

theorem Kept.cons (h : c.Kept items)
    (hnew : c.sent item = true → c.key item = false → c.Whole (c.stream item) items) :
    c.Kept (item :: items) := by
  intro later other earlier hsplit hsent hdelta
  cases later with
  | nil =>
      obtain ⟨rfl, rfl⟩ := List.cons.inj hsplit
      exact hnew hsent hdelta
  | cons first later => exact h later other earlier (List.cons.inj hsplit).2 hsent hdelta

end Chain

end EvertyDesk
