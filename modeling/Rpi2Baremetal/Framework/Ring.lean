import Rpi2Baremetal.Framework.Segment

/-!
# Circular lists

`Ring next l` says that the nodes of `l` form a circle: `next` leads from each of them to the
one after it, and from the last to the first.  A ring can be entered at any of its nodes
(`Ring.rotate`), its nodes are those that iterating `next` reaches (`Ring.mem_iff_iterate`),
and `Ring.unlink` takes one of them out.

`DoublyLinked next prev l` adds links back.  `DoublyLinked.push` puts a node in front of the
first one, that is at the end, and `DoublyLinked.remove` takes any other node out.  Both read
the new links at the nodes of the ring only.

`Rings next prev heads queue` is a family of such rings without common nodes, one for each head,
as queues with sentinels are kept.  `Rings.push` and `Rings.remove` change one of them and leave
the others.
-/

namespace Framework

variable {α : Type*} {next next' prev prev' : α → α}

/-- The nodes of `l` form a circle. -/
def Ring (next : α → α) : List α → Prop
  | [] => False
  | a :: ws => Seg next (next a) ws a

@[simp] lemma ring_cons {a : α} {ws : List α} :
    Ring next (a :: ws) ↔ Seg next (next a) ws a := Iff.rfl

namespace Ring

variable {a p x : α} {l us vs ws : List α}

/-- A ring reads only the links of its nodes. -/
lemma congr (h : ∀ w ∈ l, next' w = next w) (hr : Ring next l) : Ring next' l := by
  cases l with
  | nil => exact hr
  | cons a ws =>
      simp only [List.mem_cons, forall_eq_or_imp] at h
      rw [ring_cons, h.1]
      exact Seg.congr h.2 hr

/-- A ring can be entered at any of its nodes. -/
lemma rotate (hr : Ring next (us ++ vs)) : Ring next (vs ++ us) := by
  cases us with
  | nil => simpa using hr
  | cons a us =>
      cases vs with
      | nil => simpa using hr
      | cons b vs =>
          rw [List.cons_append, ring_cons, seg_append] at hr
          obtain ⟨y, hus, rfl, hvs⟩ := hr
          rw [List.cons_append, ring_cons, seg_append]
          exact ⟨a, hvs, rfl, hus⟩

lemma next_mem (hr : Ring next l) (hx : x ∈ l) : next x ∈ l := by
  obtain ⟨us, vs, rfl⟩ := List.append_of_mem hx
  have hring := hr.rotate
  rw [List.cons_append, ring_cons] at hring
  cases hvs : vs ++ us with
  | nil =>
      rw [hvs, seg_nil] at hring
      rw [hring]
      exact hx
  | cons b bs =>
      rw [hvs, seg_cons] at hring
      have hb : b ∈ vs ++ us := by simp [hvs]
      rw [hring.1]
      simp only [List.mem_append, List.mem_cons] at hb ⊢
      tauto

/-- The nodes of a ring are those that iterating `next` from one of them reaches. -/
lemma mem_iff_iterate (hr : Ring next (a :: ws)) : x ∈ a :: ws ↔ ∃ n, next^[n] a = x := by
  constructor
  · have hreach : ∀ {b : α} {us : List α} {z : α}, Seg next (next b) us z → x ∈ b :: us →
        ∃ n, next^[n] b = x := by
      intro b us z hs hx
      induction us generalizing b with
      | nil => exact ⟨0, (List.mem_singleton.mp hx).symm⟩
      | cons c us ih =>
          rcases List.mem_cons.mp hx with rfl | hx
          · exact ⟨0, rfl⟩
          · obtain ⟨n, hn⟩ := ih hs.2 hx
            exact ⟨n + 1, by rw [Function.iterate_succ_apply, hs.1, hn]⟩
    exact hreach hr
  · rintro ⟨n, rfl⟩
    induction n with
    | zero => exact List.mem_cons_self
    | succ n ih =>
        rw [Function.iterate_succ_apply']
        exact hr.next_mem ih

/-- Redirecting the link to a node to its successor takes the node out of the ring. -/
lemma unlink [DecidableEq α] (hnd : (a :: (us ++ p :: vs)).Nodup)
    (hr : Ring next (a :: (us ++ p :: vs)))
    (h : next' = Function.update next (us.getLastD a) (next p)) :
    Ring next' (a :: (us ++ vs)) := by
  rw [ring_cons, seg_append] at hr
  obtain ⟨y, hus, rfl, hvs⟩ := hr
  have hnd' : (a :: us).Nodup ∧ ∀ w ∈ vs, w ≠ us.getLastD a := by
    rw [← List.cons_append, List.nodup_append] at hnd
    refine ⟨hnd.1, fun w hw he => ?_⟩
    exact hnd.2.2 _ (getLastD_mem a us) w (List.mem_cons_of_mem _ hw) he.symm
  rw [ring_cons, seg_append]
  refine ⟨next y, hus.relink hnd'.1 h, hvs.congr fun w hw => ?_⟩
  rw [h, Function.update_of_ne (hnd'.2 w hw)]

/-- The rule for any node of a ring that has others. -/
lemma unlink_of_ne_nil [DecidableEq α] (hnd : (us ++ p :: vs).Nodup)
    (hr : Ring next (us ++ p :: vs)) (hne : vs ++ us ≠ [])
    (h : next' = Function.update next ((vs ++ us).getLastD p) (next p)) :
    Ring next' (us ++ vs) := by
  have hring := hr.rotate
  have hnd' : (p :: (vs ++ us)).Nodup := List.nodup_append_comm.mp hnd
  rw [List.cons_append] at hring
  refine Ring.rotate ?_
  obtain ⟨b, bs, hbs⟩ := List.exists_cons_of_ne_nil hne
  rw [hbs, ← List.singleton_append] at hring hnd'
  rw [hbs, List.getLastD_cons] at h
  rw [hbs, ← List.append_nil bs]
  exact unlink (List.nodup_append_comm.mp hnd') hring.rotate h

end Ring

/-! ## Rings with links back -/

/-- The nodes of `l` form a circle that `next` and `prev` go through in opposite directions. -/
structure DoublyLinked (next prev : α → α) (l : List α) : Prop where
  ring : Ring next l
  nodup : l.Nodup
  back : ∀ x ∈ l, prev (next x) = x

namespace DoublyLinked

variable {a p x : α} {us vs ws : List α}

/-- Only the links of the nodes are read. -/
lemma congr {l : List α} (h : DoublyLinked next prev l) (hnext : ∀ x ∈ l, next' x = next x)
    (hprev : ∀ x ∈ l, prev' x = prev x) : DoublyLinked next' prev' l := by
  refine ⟨h.ring.congr hnext, h.nodup, fun x hx => ?_⟩
  rw [hnext x hx, hprev _ (h.ring.next_mem hx), h.back x hx]

lemma next_inj (h : DoublyLinked next prev (a :: ws)) {y : α} (hx : x ∈ a :: ws)
    (hy : y ∈ a :: ws) (he : next x = next y) : x = y := by
  rw [← h.back x hx, he, h.back y hy]

/-- The node before the first one is the last one. -/
lemma prev_first (h : DoublyLinked next prev (a :: ws)) : prev a = ws.getLastD a := by
  have hlast := Seg.next_getLastD h.ring
  rw [← h.back _ (getLastD_mem a ws), hlast]

/-- The node before another one. -/
lemma prev_of_split (h : DoublyLinked next prev (a :: (us ++ p :: vs))) :
    prev p = us.getLastD a := by
  have hring := h.ring
  rw [ring_cons, seg_append] at hring
  obtain ⟨y, hus, rfl, -⟩ := hring
  have hmem : us.getLastD a ∈ a :: (us ++ y :: vs) := by
    rw [← List.cons_append]
    exact List.mem_append_left _ (getLastD_mem a us)
  rw [← h.back _ hmem, Seg.next_getLastD hus]

lemma prev_mem (h : DoublyLinked next prev (a :: ws)) (hx : x ∈ a :: ws) :
    prev x ∈ a :: ws := by
  rcases List.mem_cons.mp hx with rfl | hx
  · rw [h.prev_first]
    exact getLastD_mem x ws
  · obtain ⟨us, vs, rfl⟩ := List.append_of_mem hx
    rw [h.prev_of_split, ← List.cons_append]
    exact List.mem_append_left _ (getLastD_mem a us)

/-- A link forward undoes a link back. -/
lemma forth (h : DoublyLinked next prev (a :: ws)) (hx : x ∈ a :: ws) : next (prev x) = x := by
  rcases List.mem_cons.mp hx with rfl | hx
  · rw [h.prev_first, Seg.next_getLastD h.ring]
  · obtain ⟨us, vs, rfl⟩ := List.append_of_mem hx
    have hring := h.ring
    rw [h.prev_of_split]
    rw [ring_cons, seg_append] at hring
    obtain ⟨y, hus, rfl, -⟩ := hring
    exact Seg.next_getLastD hus

variable [DecidableEq α]

/-- A new node linked in between the last node and the first is the last one. -/
lemma push (h : DoublyLinked next prev (a :: ws)) (hp : p ∉ a :: ws)
    (hnext : ∀ x ∈ a :: ws, next' x = if x = prev a then p else next x) (hnextp : next' p = a)
    (hprev : ∀ x ∈ a :: ws, prev' x = if x = a then p else prev x) (hprevp : prev' p = prev a) :
    DoublyLinked next' prev' (a :: (ws ++ [p])) := by
  have hlast := h.prev_first
  refine ⟨?_, ?_, ?_⟩
  · have hrelink : Seg (Function.update next (ws.getLastD a) p)
        (Function.update next (ws.getLastD a) p a) ws p := Seg.relink h.nodup h.ring rfl
    have hagree : ∀ x ∈ a :: ws, next' x = Function.update next (ws.getLastD a) p x := by
      intro x hx
      rw [hnext x hx, hlast, Function.update_apply]
    rw [ring_cons, seg_append]
    refine ⟨p, ?_, rfl, hnextp⟩
    rw [hagree a (List.mem_cons_self ..)]
    exact hrelink.congr fun x hx => hagree x (List.mem_cons_of_mem _ hx)
  · rw [← List.cons_append]
    refine List.nodup_append.mpr ⟨h.nodup, List.nodup_singleton p, fun x hx y hy => ?_⟩
    rw [List.mem_singleton.mp hy]
    exact fun he => hp (he ▸ hx)
  · intro x hx
    rw [← List.cons_append, List.mem_append, List.mem_singleton] at hx
    rcases hx with hx | rfl
    · rw [hnext x hx]
      split_ifs with he
      · rw [hprevp, he]
      · have hne : next x ≠ a := fun hxa => he (by rw [← hxa, h.back x hx])
        rw [hprev _ (h.ring.next_mem hx), if_neg hne, h.back x hx]
    · rw [hnextp, hprev a (List.mem_cons_self ..), if_pos rfl]

/-- A node other than the first whose neighbours are linked to each other is out of the
ring. -/
lemma remove (h : DoublyLinked next prev (a :: (us ++ p :: vs)))
    (hnext : ∀ x ∈ a :: (us ++ vs), next' x = if x = prev p then next p else next x)
    (hprev : ∀ x ∈ a :: (us ++ vs), prev' x = if x = next p then prev p else prev x) :
    DoublyLinked next' prev' (a :: (us ++ vs)) := by
  have hsub : ∀ x ∈ a :: (us ++ vs), x ∈ a :: (us ++ p :: vs) := by
    intro x hx
    simp only [List.mem_cons, List.mem_append] at hx ⊢
    tauto
  have hnd : (a :: (us ++ vs)).Nodup :=
    h.nodup.sublist (by simp)
  have hpmem : p ∈ a :: (us ++ p :: vs) := by simp
  have hring : Ring next' (a :: (us ++ vs)) := by
    refine (h.ring.unlink h.nodup rfl).congr fun x hx => ?_
    rw [hnext x hx, h.prev_of_split, Function.update_apply]
  refine ⟨hring, hnd, fun x hx => ?_⟩
  have hx' := hsub x hx
  have hmem := hring.next_mem hx
  rw [hnext x hx] at hmem ⊢
  split_ifs at hmem ⊢ with he
  · rw [hprev _ hmem, if_pos rfl, he]
  · rw [hprev _ hmem, if_neg, h.back x hx']
    intro hxp
    have hxeq : x = p := h.next_inj hx' hpmem hxp
    subst hxeq
    have hnot := h.nodup
    rw [← List.cons_append, List.nodup_middle] at hnot
    exact (List.nodup_cons.mp hnot).1 hx

end DoublyLinked

/-! ## Families of rings -/

/-- For each head a ring of the head and its queue, no two with a common node. -/
structure Rings (next prev : α → α) (heads : Set α) (queue : α → List α) : Prop where
  linked : ∀ h ∈ heads, DoublyLinked next prev (h :: queue h)
  apart : ∀ h ∈ heads, ∀ h' ∈ heads, h ≠ h' → List.Disjoint (h :: queue h) (h' :: queue h')

namespace Rings

variable {heads : Set α} {queue : α → List α} {h h' p x : α}

/-- The nodes of the rings. -/
def Node (heads : Set α) (queue : α → List α) (x : α) : Prop := ∃ h ∈ heads, x ∈ h :: queue h

/-- The nodes of the queues. -/
def Queued (heads : Set α) (queue : α → List α) (x : α) : Prop := ∃ h ∈ heads, x ∈ queue h

lemma Queued.node (hx : Queued heads queue x) : Node heads queue x := by
  obtain ⟨h, hh, hx⟩ := hx
  exact ⟨h, hh, List.mem_cons_of_mem _ hx⟩

/-- A node is in one ring only. -/
lemma eq_of_mem (hr : Rings next prev heads queue) (hh : h ∈ heads) (hh' : h' ∈ heads)
    (hx : x ∈ h :: queue h) (hx' : x ∈ h' :: queue h') : h = h' := by
  by_contra hne
  exact hr.apart h hh h' hh' hne hx hx'

lemma next_mem (hr : Rings next prev heads queue) (hh : h ∈ heads) (hx : x ∈ h :: queue h) :
    next x ∈ h :: queue h := (hr.linked h hh).ring.next_mem hx

lemma prev_mem (hr : Rings next prev heads queue) (hh : h ∈ heads) (hx : x ∈ h :: queue h) :
    prev x ∈ h :: queue h := (hr.linked h hh).prev_mem hx

/-- The rings read only the links of their nodes. -/
lemma congr (hr : Rings next prev heads queue)
    (hnext : ∀ x, Node heads queue x → next' x = next x)
    (hprev : ∀ x, Node heads queue x → prev' x = prev x) : Rings next' prev' heads queue := by
  refine ⟨fun h hh => (hr.linked h hh).congr ?_ ?_, hr.apart⟩
  · exact fun x hx => hnext x ⟨h, hh, hx⟩
  · exact fun x hx => hprev x ⟨h, hh, hx⟩

/-- Heads that are linked to themselves have empty queues. -/
lemma of_self (hnext : ∀ h ∈ heads, next h = h) (hprev : ∀ h ∈ heads, prev h = h) :
    Rings next prev heads fun _ => [] := by
  refine ⟨fun h hh => ⟨hnext h hh, List.nodup_singleton h, ?_⟩, ?_⟩
  · intro x hx
    rw [List.mem_singleton.mp hx, hnext h hh, hprev h hh]
  · intro h _ h' _ hne x hx hx'
    rw [List.mem_singleton.mp hx] at hx'
    exact hne (List.mem_singleton.mp hx')

variable [DecidableEq α]

/-- A new node at the end of one queue. -/
lemma push (hr : Rings next prev heads queue) (hh : h ∈ heads) (hp : ¬ Node heads queue p)
    (hnext : ∀ x, Node heads queue x → next' x = if x = prev h then p else next x)
    (hnextp : next' p = h)
    (hprev : ∀ x, Node heads queue x → prev' x = if x = h then p else prev x)
    (hprevp : prev' p = prev h) :
    Rings next' prev' heads (Function.update queue h (queue h ++ [p])) := by
  have hfresh : ∀ h' ∈ heads, p ∉ h' :: queue h' := fun h' hh' hmem => hp ⟨h', hh', hmem⟩
  have hmem : ∀ {h' x}, x ∈ h' :: Function.update queue h (queue h ++ [p]) h' →
      x ∈ h' :: queue h' ∨ h' = h ∧ x = p := by
    intro h' x hx
    by_cases he : h' = h
    · subst he
      rw [Function.update_self, ← List.cons_append, List.mem_append, List.mem_singleton] at hx
      exact hx.imp_right fun hxp => ⟨rfl, hxp⟩
    · rw [Function.update_of_ne he] at hx
      exact .inl hx
  refine ⟨fun h' hh' => ?_, fun a ha b hb hne x hx hx' => ?_⟩
  · by_cases he : h' = h
    · subst he
      rw [Function.update_self]
      exact (hr.linked h' hh').push (hfresh h' hh') (fun x hx => hnext x ⟨h', hh', hx⟩) hnextp
        (fun x hx => hprev x ⟨h', hh', hx⟩) hprevp
    · -- neither the last node of the queue of `h` nor `h` is in this ring
      rw [Function.update_of_ne he]
      have hother : ∀ x ∈ h' :: queue h', x ∉ h :: queue h :=
        fun x hx hx' => he (hr.eq_of_mem hh' hh hx hx')
      refine (hr.linked h' hh').congr (fun x hx => ?_) fun x hx => ?_
      · rw [hnext x ⟨h', hh', hx⟩, if_neg]
        rintro rfl
        exact hother _ hx (hr.prev_mem hh List.mem_cons_self)
      · rw [hprev x ⟨h', hh', hx⟩, if_neg]
        exact fun heq => hother x hx (heq ▸ List.mem_cons_self)
  · rcases hmem hx with hxa | ⟨hah, hxp⟩
    · rcases hmem hx' with hxb | ⟨-, hxp⟩
      · exact hr.apart a ha b hb hne hxa hxb
      · exact hfresh a ha (hxp ▸ hxa)
    · rcases hmem hx' with hxb | ⟨hbh, -⟩
      · exact hfresh b hb (hxp ▸ hxb)
      · exact hne (hah.trans hbh.symm)

/-- After `push` the queues have the nodes they had and the new one. -/
lemma queued_push (hx : Queued heads (Function.update queue h (queue h ++ [p])) x) :
    x = p ∨ Queued heads queue x := by
  obtain ⟨h', hh', hx⟩ := hx
  by_cases he : h' = h
  · subst he
    rw [Function.update_self, List.mem_append, List.mem_singleton] at hx
    exact hx.symm.imp_right fun hmem => ⟨h', hh', hmem⟩
  · rw [Function.update_of_ne he] at hx
    exact .inr ⟨h', hh', hx⟩

/-- The queues without one node. -/
def without (queue : α → List α) (p : α) : α → List α := fun h => (queue h).filter (· ≠ p)

/-- A queue without the node is as it was. -/
lemma without_of_notMem (hp : p ∉ queue h) : without queue p h = queue h := by
  rw [without, List.filter_eq_self]
  intro x hx
  exact decide_eq_true fun he => hp (he ▸ hx)

lemma queued_without : Queued heads (without queue p) x ↔ Queued heads queue x ∧ x ≠ p := by
  simp only [Queued, without, List.mem_filter, decide_eq_true_eq]
  constructor
  · rintro ⟨h, hh, hx, hne⟩
    exact ⟨⟨h, hh, hx⟩, hne⟩
  · rintro ⟨⟨h, hh, hx⟩, hne⟩
    exact ⟨h, hh, hx, hne⟩

/-- A node whose neighbours are linked to each other is out of its queue. -/
lemma remove (hr : Rings next prev heads queue) (hh : h ∈ heads) (hp : p ∈ queue h)
    (hnext : ∀ x, Node heads queue x → x ≠ p →
      next' x = if x = prev p then next p else next x)
    (hprev : ∀ x, Node heads queue x → x ≠ p →
      prev' x = if x = next p then prev p else prev x) :
    Rings next' prev' heads (without queue p) := by
  have hpmem : p ∈ h :: queue h := List.mem_cons_of_mem _ hp
  have hsub : ∀ h', without queue p h' ⊆ queue h' := fun h' x hx => List.mem_of_mem_filter hx
  refine ⟨fun h' hh' => ?_, fun a ha b hb hne x hx hx' => ?_⟩
  · by_cases he : h' = h
    · subst he
      obtain ⟨us, vs, hsplit⟩ := List.append_of_mem hp
      have hring := hr.linked h' hh'
      have hnd := hring.nodup
      rw [hsplit] at hring hnd
      have hnot : p ∉ h' :: (us ++ vs) := by
        rw [← List.cons_append, List.nodup_middle] at hnd
        exact (List.nodup_cons.mp hnd).1
      have hrest : without queue p h' = us ++ vs := by
        have hfilter : ∀ ws : List α, p ∉ ws → ws.filter (· ≠ p) = ws := fun ws hws =>
          List.filter_eq_self.mpr fun x hx => decide_eq_true fun he => hws (he ▸ hx)
        rw [List.mem_cons, List.mem_append, not_or, not_or] at hnot
        rw [without, hsplit, List.filter_append, List.filter_cons_of_neg (by simp),
          hfilter us hnot.2.1, hfilter vs hnot.2.2]
      have hnode : ∀ x ∈ h' :: (us ++ vs), Node heads queue x ∧ x ≠ p := by
        intro x hx
        refine ⟨⟨h', hh', ?_⟩, fun hxp => hnot (hxp ▸ hx)⟩
        rw [hsplit]
        simp only [List.mem_cons, List.mem_append] at hx ⊢
        tauto
      rw [hrest]
      exact hring.remove (fun x hx => hnext x (hnode x hx).1 (hnode x hx).2)
        fun x hx => hprev x (hnode x hx).1 (hnode x hx).2
    · -- the node and its neighbours are in another ring
      have hother : ∀ x ∈ h' :: queue h', x ∉ h :: queue h :=
        fun x hx hx' => he (hr.eq_of_mem hh' hh hx hx')
      rw [without_of_notMem fun hmem => hother p (List.mem_cons_of_mem _ hmem) hpmem]
      have hneq : ∀ x ∈ h' :: queue h', x ≠ p := fun x hx hxp => hother x hx (hxp ▸ hpmem)
      refine (hr.linked h' hh').congr (fun x hx => ?_) fun x hx => ?_
      · rw [hnext x ⟨h', hh', hx⟩ (hneq x hx), if_neg]
        rintro rfl
        exact hother _ hx (hr.prev_mem hh hpmem)
      · rw [hprev x ⟨h', hh', hx⟩ (hneq x hx), if_neg]
        exact fun heq => hother x hx (heq ▸ hr.next_mem hh hpmem)
  · exact hr.apart a ha b hb hne (List.cons_subset_cons a (hsub a) hx)
      (List.cons_subset_cons b (hsub b) hx')

end Rings

end Framework
