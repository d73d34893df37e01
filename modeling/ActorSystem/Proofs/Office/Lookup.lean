import ActorSystem.Office

/-!
# What editing an office does to its lookups

Each function that edits an office, through each function that looks something up in it. The
registry (`boxAt`) and the mailboxes (`box?`) are edited apart from each other, so most of these
equations say that nothing changes.

* `boxAt_eraseEntry`, `boxAt_setEntry`: the registry is a map from addresses to mailboxes.
* `box?_modifyBox`: editing a mailbox changes this one only.
-/

namespace ActorSystem.Office

variable {V : Type} (o : Office V)

/-! ## The registry -/

theorem lookup_filter_ne (es : List (Address × BoxRef)) (a c : Address) :
    (es.filter (·.1 ≠ a)).lookup c = if c = a then none else es.lookup c := by
  induction es with
  | nil => simp
  | cons e es ih =>
    obtain ⟨d, b⟩ := e
    by_cases hd : d = a
    · rw [List.filter_cons_of_neg (by simp [hd]), ih, List.lookup_cons]
      by_cases hc : c = a
      · simp [hc]
      · have hcd : (c == d) = false := by simp [hd, hc]
        simp [hc, hcd]
    · rw [List.filter_cons_of_pos (by simp [hd]), List.lookup_cons, List.lookup_cons, ih]
      by_cases hcd : c = d
      · simp [hcd, hd]
      · have hcd' : (c == d) = false := by simp [hcd]
        simp [hcd']

@[simp] theorem boxAt_eraseEntry (a c : Address) :
    (o.eraseEntry a).boxAt c = if c = a then none else o.boxAt c :=
  lookup_filter_ne o.entries a c

@[simp] theorem boxAt_setEntry (a c : Address) (b : BoxRef) :
    (o.setEntry a b).boxAt c = if c = a then some b else o.boxAt c := by
  simp only [boxAt, setEntry, List.lookup_append, lookup_filter_ne]
  by_cases h : c = a
  · simp [h]
  · have hb : (c == a) = false := by simp [h]
    simp [h, List.lookup_cons, hb]

/-! ## The mailboxes -/

@[simp] theorem box?_setEntry (a : Address) (b c : BoxRef) : (o.setEntry a b).box? c = o.box? c :=
  rfl

@[simp] theorem box?_modifyBox (b c : BoxRef) (f : Mailbox V → Mailbox V) :
    (o.modifyBox b f).box? c = if b = c then (o.box? c).map f else o.box? c := by
  simp [modifyBox, box?, Array.getElem?_modify]

theorem box?_put (b c : BoxRef) (m : Message V) :
    (o.put b m).box? c = if b = c then (o.box? c).map (·.put m) else o.box? c :=
  o.box?_modifyBox b c _

theorem mail_put {b : BoxRef} (h : (o.box? b).isSome) (m : Message V) (c : BoxRef) :
    (o.put b m).mail c = o.mail c ++ if b = c then [m] else [] := by
  simp only [mail, box?_put]
  split
  · rename_i hbc
    subst hbc
    obtain ⟨box, hbox⟩ := Option.isSome_iff_exists.mp h
    simp [hbox, Mailbox.put]
  · simp

theorem box?_eq_none_of_size_le {b : BoxRef} (h : o.boxes.size ≤ b) : o.box? b = none := by
  simpa [box?] using h

theorem box?_isSome_of_isOwned {b : BoxRef} (h : o.isOwned b) : (o.box? b).isSome := by
  rw [isOwned] at h
  cases hb : o.box? b with
  | none => simp [hb] at h
  | some box => rfl

theorem lt_size_of_isOwned {b : BoxRef} (h : o.isOwned b) : b < o.boxes.size := by
  refine Nat.lt_of_not_le fun hb => ?_
  rw [isOwned, o.box?_eq_none_of_size_le hb] at h
  cases h

/-! ## A new mailbox -/

variable {o} {c : Address} {b : BoxRef} {o' : Office V}

/-- A new mailbox is the last one, and it is registered at its address. -/
theorem create_eq_ok (h : o.create c = .ok (b, o')) :
    b = o.boxes.size ∧ o' = { o with boxes := o.boxes.push { address := c } }.setEntry c b := by
  unfold create at h
  split at h
  · cases h
  · cases h
    exact ⟨rfl, rfl⟩

theorem not_contains_of_create (h : o.create c = .ok (b, o')) : o.contains c = false := by
  unfold create at h
  split at h
  · cases h
  · rename_i hc
    simpa using hc

theorem boxAt_create (h : o.create c = .ok (b, o')) (d : Address) :
    o'.boxAt d = if d = c then some b else o.boxAt d := by
  rw [(create_eq_ok h).2, boxAt_setEntry]
  rfl

theorem box?_create (h : o.create c = .ok (b, o')) (d : BoxRef) :
    o'.box? d = if d = b then some { address := c } else o.box? d := by
  obtain ⟨rfl, rfl⟩ := create_eq_ok h
  rw [box?_setEntry, box?, Array.getElem?_push]
  rfl

/-- A mailbox that is owned is not the new one. -/
theorem isOwned_create (h : o.create c = .ok (b, o')) {d : BoxRef} (hd : o.isOwned d) :
    d ≠ b ∧ o'.box? d = o.box? d := by
  have hne : d ≠ b := by
    rw [(create_eq_ok h).1]
    exact Nat.ne_of_lt (o.lt_size_of_isOwned hd)
  rw [box?_create h, if_neg hne]
  exact ⟨hne, rfl⟩

/-! ## Moving a mailbox -/

theorem rekey_eq_ok {s t : Address} (h : o.rekey b s t = .ok o') :
    o.boxAt s = some b ∧ (s ≠ t → o.contains t = false) ∧ o'.boxes = o.boxes ∧
      o'.closed = o.closed ∧
      ∀ d, o'.boxAt d = if d = t then some b else if d = s then none else o.boxAt d := by
  unfold rekey at h
  split at h
  · cases h
  rename_i hs
  have hkeyed : o.boxAt s = some b := Decidable.not_not.mp hs
  split at h
  · rename_i hst
    cases h
    refine ⟨hkeyed, fun hne => absurd hst hne, rfl, rfl, fun d => ?_⟩
    split
    · rename_i hd
      rw [hd, ← hst, hkeyed]
    · rename_i hd
      rw [hst, if_neg hd]
  · split at h
    · cases h
    · rename_i hst ht
      cases h
      refine ⟨hkeyed, fun _ => by simpa using ht, rfl, rfl, fun d => ?_⟩
      rw [boxAt_setEntry, boxAt_eraseEntry]

end ActorSystem.Office
