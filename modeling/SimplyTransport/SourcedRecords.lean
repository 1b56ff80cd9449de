import SimplyTransport.OrderedDict

/-!
# Records of several sources

Each source gives some records, and of all records with one key the last one is returned. Where
some sources are left out, the records returned for the others stay the same unless one that is
left out had the last word on a key of theirs.
-/

namespace OrderedDict

variable {κ α β γ : Type*} [DecidableEq κ]

section Filter

variable {key : α → κ} {p : α → Bool} {l : List α}

theorem mem_lastBy_filter {a : α} (h : a ∈ (lastBy key l).values) (hp : p a = true) :
    a ∈ (lastBy key (l.filter p)).values := by
  obtain ⟨l₁, l₂, rfl, hlast⟩ := mem_lastBy_values_iff_append.1 h
  refine mem_lastBy_values_iff_append.2 ⟨l₁.filter p, l₂.filter p, ?_, fun b hb => ?_⟩
  · rw [List.filter_append, List.filter_cons_of_pos hp]
  · exact hlast b (List.mem_of_mem_filter hb)

theorem eq_of_mem_lastBy {a b : α} (ha : a ∈ (lastBy key l).values)
    (hb : b ∈ (lastBy key l).values) (h : key a = key b) : a = b :=
  List.inj_on_of_nodup_map (nodup_lastBy_values key l) ha hb h

theorem mem_filter_of_mem_lastBy_filter
    (hlast : ∀ a ∈ (lastBy key l).values, (∃ b ∈ l, key b = key a ∧ p b = true) → p a = true)
    {a : α} (h : a ∈ (lastBy key (l.filter p)).values) : a ∈ (lastBy key l).values.filter p := by
  have ha := List.mem_filter.1 (mem_of_mem_lastBy_values h)
  obtain ⟨b, hb, hkey⟩ := exists_mem_lastBy_values key ha.1
  have hpb := hlast b hb ⟨a, ha.1, hkey.symm, ha.2⟩
  rw [← eq_of_mem_lastBy (mem_lastBy_filter hb hpb) h hkey]
  exact List.mem_filter.2 ⟨hb, hpb⟩

end Filter

/-- The last records of a mapped list are the images of the last ones. -/
theorem lastBy_map_values (key : β → κ) (g : α → β) (l : List α) :
    (lastBy key (l.map g)).values = (lastBy (fun a => key (g a)) l).values.map g := by
  have hentries : (lastBy key (l.map g)).entries =
      (lastBy (fun a => key (g a)) l).entries.map (fun e => (e.1, g e.2)) := by
    induction l using List.reverseRecOn with
    | nil => rfl
    | append_singleton l a ih =>
        have hleft : lastBy key ((l ++ [a]).map g) =
            (lastBy key (l.map g)).set (key (g a)) (g a) := by
          rw [List.map_append, List.map_singleton, lastBy, List.foldl_concat, lastBy]
        have hright : lastBy (fun a => key (g a)) (l ++ [a]) =
            (lastBy (fun a => key (g a)) l).set (key (g a)) a := by
          rw [lastBy, List.foldl_concat, lastBy]
        rw [hleft, hright]
        change setEntries _ _ _ = (setEntries _ _ _).map _
        rw [ih]
        exact setEntries_map g _ a _
  rw [values, hentries, values, List.map_map, List.map_map]
  rfl

section Sources

variable (records : γ → List β) (key : β → κ) (p : γ → Bool) (sources : List γ)

def sourced : List (γ × β) := sources.flatMap (fun s => (records s).map (fun r => (s, r)))

def returnedFor : List β :=
  (((lastBy (fun a => key a.2) (sourced records sources)).values.filter (fun a => p a.1)).map
    Prod.snd)

/-- A source without the property has the last word on a key of one with it nowhere. -/
def NoneReplaced (keys : γ → List κ) (p : γ → Bool) (sources : List γ) : Prop :=
  ∀ before s after, sources = before ++ s :: after → p s = false → ∀ k ∈ keys s,
    (∃ t ∈ before, p t = true ∧ k ∈ keys t) → ∃ t ∈ after, p t = true ∧ k ∈ keys t

variable {records key p sources}

omit [DecidableEq κ] in
theorem NoneReplaced.congr {keys keys' : γ → List κ} (h : ∀ s ∈ sources, keys s = keys' s) :
    NoneReplaced keys p sources ↔ NoneReplaced keys' p sources := by
  apply forall₃_congr
  intro before s after
  apply imp_congr_right
  rintro rfl
  have hs := h s (List.mem_append_right _ List.mem_cons_self)
  have hbefore : ∀ t ∈ before, keys t = keys' t := fun t ht => h t (List.mem_append_left _ ht)
  have hafter : ∀ t ∈ after, keys t = keys' t := fun t ht =>
    h t (List.mem_append_right _ (List.mem_cons_of_mem _ ht))
  have hgives : ∀ l : List γ, (∀ t ∈ l, keys t = keys' t) → ∀ k,
      (∃ t ∈ l, p t = true ∧ k ∈ keys t) ↔ ∃ t ∈ l, p t = true ∧ k ∈ keys' t := by
    intro l hl k
    apply exists_congr
    intro t
    exact and_congr_right (fun ht => by rw [hl t ht])
  simp only [hs, hgives before hbefore, hgives after hafter]

theorem map_snd_sourced : (sourced records sources).map Prod.snd = sources.flatMap records := by
  simp only [sourced, List.map_flatMap, List.map_map, Function.comp_def, List.map_id']

theorem mem_sourced {s : γ} {r : β} :
    (s, r) ∈ sourced records sources ↔ s ∈ sources ∧ r ∈ records s := by
  simp only [sourced, List.mem_flatMap, List.mem_map, Prod.mk.injEq]
  constructor
  · rintro ⟨s', hs, r', hr, rfl, rfl⟩
    exact ⟨hs, hr⟩
  · rintro ⟨hs, hr⟩
    exact ⟨s, hs, r, hr, rfl, rfl⟩

theorem sourced_filter :
    sourced records (sources.filter p) = (sourced records sources).filter (fun a => p a.1) := by
  induction sources with
  | nil => rfl
  | cons s sources ih =>
      simp only [sourced, List.flatMap_cons, List.filter_append] at ih ⊢
      by_cases hp : p s = true
      · have hall : ((records s).map (fun r => (s, r))).filter (fun a => p a.1) =
            (records s).map (fun r => (s, r)) := by
          rw [List.filter_eq_self]
          intro a ha
          obtain ⟨r, _, rfl⟩ := List.mem_map.1 ha
          exact hp
        rw [List.filter_cons_of_pos hp, List.flatMap_cons, ih, hall]
      · have hnone : ((records s).map (fun r => (s, r))).filter (fun a => p a.1) = [] := by
          rw [List.filter_eq_nil_iff]
          intro a ha
          obtain ⟨r, _, rfl⟩ := List.mem_map.1 ha
          exact hp
        rw [List.filter_cons_of_neg hp, ih, hnone, List.nil_append]

theorem lastBy_filter_sources :
    (lastBy key ((sources.filter p).flatMap records)).values =
      (lastBy (fun a => key a.2)
        ((sourced records sources).filter (fun a => p a.1))).values.map Prod.snd := by
  rw [← map_snd_sourced, sourced_filter, lastBy_map_values]

/-- After the source of a key's last record no source gives the key. -/
theorem exists_last_source {k : κ} {a : γ × β}
    (ha : ((sourced records sources).filter (fun b => key b.2 = k)).getLast? = some a) :
    ∃ before after, sources = before ++ a.1 :: after ∧ ∀ t ∈ after, k ∉ (records t).map key := by
  induction sources using List.reverseRecOn with
  | nil => cases ha
  | append_singleton init t ih =>
      have hsplit : sourced records (init ++ [t]) =
          sourced records init ++ (records t).map (fun r => (t, r)) := by
        simp only [sourced, List.flatMap_append, List.flatMap_singleton]
      rw [hsplit, List.filter_append, List.getLast?_append] at ha
      cases hlast :
        (((records t).map (fun r => (t, r))).filter (fun b => key b.2 = k)).getLast? with
      | some b =>
          rw [hlast, Option.some_or] at ha
          obtain ⟨r, _, hr⟩ :=
            List.mem_map.1 (List.mem_of_mem_filter (List.mem_of_getLast? (hlast.trans ha)))
          exact ⟨init, [], by rw [← hr], fun u hu => absurd hu List.not_mem_nil⟩
      | none =>
          rw [hlast, Option.none_or] at ha
          obtain ⟨before, after, rfl, hafter⟩ := ih ha
          rw [List.getLast?_eq_none_iff, List.filter_eq_nil_iff] at hlast
          refine ⟨before, after ++ [t], by simp only [List.append_assoc, List.cons_append], ?_⟩
          intro u hu
          rcases List.mem_append.1 hu with hu | hu
          · exact hafter u hu
          · rw [List.mem_singleton.1 hu]
            intro hk
            obtain ⟨r, hr, rfl⟩ := List.mem_map.1 hk
            exact hlast (t, r) (List.mem_map_of_mem hr) (decide_eq_true rfl)

/-- The last record of a key that a source with the property gives comes from such a source. -/
theorem NoneReplaced.last (h : NoneReplaced (fun s => (records s).map key) p sources)
    {a : γ × β} (ha : a ∈ (lastBy (fun a => key a.2) (sourced records sources)).values)
    (hb : ∃ b ∈ sourced records sources, key b.2 = key a.2 ∧ p b.1 = true) : p a.1 = true := by
  by_contra hp
  obtain ⟨before, after, hsources, hafter⟩ := exists_last_source (mem_lastBy_values.1 ha)
  have hmem := mem_of_mem_lastBy_values ha
  obtain ⟨b, hb, hkey, hpb⟩ := hb
  have hgives : ∀ c ∈ sourced records sources, key c.2 = key a.2 →
      c.1 ∈ sources ∧ key a.2 ∈ (records c.1).map key := by
    intro c hc hkey
    have hc := mem_sourced.1 hc
    exact ⟨hc.1, hkey ▸ List.mem_map_of_mem hc.2⟩
  have hbefore : ∃ t ∈ before, p t = true ∧ key a.2 ∈ (records t).map key := by
    obtain ⟨hbs, hbk⟩ := hgives b hb hkey
    rw [hsources, List.mem_append, List.mem_cons] at hbs
    rcases hbs with hbs | hbs | hbs
    · exact ⟨b.1, hbs, hpb, hbk⟩
    · exact absurd (hbs ▸ hpb) hp
    · exact absurd hbk (hafter b.1 hbs)
  obtain ⟨t, ht, _, hk⟩ := h before a.1 after hsources (Bool.eq_false_iff.2 hp) (key a.2)
    (hgives a hmem rfl).2 hbefore
  exact hafter t ht hk

/-- What is returned for the sources with the property is what they alone return, exactly where
none of their keys is taken over for good. -/
theorem perm_returnedFor_iff :
    (returnedFor records key p sources).Perm
        (lastBy key ((sources.filter p).flatMap records)).values ↔
      NoneReplaced (fun s => (records s).map key) p sources := by
  rw [lastBy_filter_sources, returnedFor]
  constructor
  · intro hperm before s after hsources hps k hk ⟨t, ht, hpt, hkt⟩
    obtain ⟨rt, hrt, rfl⟩ := List.mem_map.1 hkt
    have htmem : (t, rt) ∈ (sourced records sources).filter (fun a => p a.1) := by
      refine List.mem_filter.2 ⟨mem_sourced.2 ⟨?_, hrt⟩, hpt⟩
      rw [hsources]
      exact List.mem_append_left _ ht
    obtain ⟨c, hc, hkey⟩ := exists_mem_lastBy_values (fun a : γ × β => key a.2) htmem
    obtain ⟨a, ha, hac⟩ := List.mem_map.1 (hperm.symm.subset (List.mem_map_of_mem hc))
    obtain ⟨ha, hpa⟩ := List.mem_filter.1 ha
    have hka : key a.2 = key rt := (congrArg key hac).trans hkey
    have hlast := mem_lastBy_values.1 ha
    obtain ⟨before', after', hsources', hafter'⟩ := exists_last_source hlast
    have hkeys : key rt ∈ (records a.1).map key :=
      hka ▸ List.mem_map_of_mem (mem_sourced.1 (mem_of_mem_lastBy_values ha)).2
    have hne : s ≠ a.1 := fun hs => by rw [hs, hpa] at hps; cases hps
    -- The source of the last record is not before `s`, which gives the key as well.
    rcases List.append_eq_append_iff.1 (hsources.symm.trans hsources') with
      ⟨mid, hmid, heq⟩ | ⟨mid, hmid, heq⟩
    · cases mid with
      | nil => exact absurd (List.cons.inj heq).1 hne
      | cons u mid =>
          refine ⟨a.1, ?_, hpa, hkeys⟩
          rw [(List.cons.inj heq).2]
          exact List.mem_append_right _ List.mem_cons_self
    · cases mid with
      | nil => exact absurd (List.cons.inj heq).1.symm hne
      | cons u mid =>
          refine absurd (hka ▸ hk) (hafter' s ?_)
          rw [(List.cons.inj heq).2]
          exact List.mem_append_right _ List.mem_cons_self
  · intro h
    apply List.Perm.map
    rw [List.perm_ext_iff_of_nodup]
    · intro a
      constructor
      · intro ha
        have ha := List.mem_filter.1 ha
        exact mem_lastBy_filter (p := fun a => p a.1) ha.1 ha.2
      · exact mem_filter_of_mem_lastBy_filter (fun a ha hb => h.last ha hb)
    · exact ((nodup_lastBy_values _ _).of_map).filter _
    · exact (nodup_lastBy_values _ _).of_map

end Sources

end OrderedDict
