import ShareKeeper.Proofs.Walk

/-!
# Refusals stop a pass

A pass ends with the first request that is refused, and fails with the refusal. There is one exception:
a look that is refused because the entity is absent leads to its creation, as does an object without
an ARN and a share that is only still listed. The creation is then the last request of the pass, and
nothing but looks stands before it.
-/

namespace ShareKeeper

open Pass

/-! ## Looks, creations and changes -/

namespace Exchange

variable {x : Exchange}

/-- Only a look tells of a deleted share. -/
theorem isLook_of_listsDeleted (h : x.ListsDeleted) : x.isLook = true := by
  obtain ⟨q, answer⟩ := x
  cases q <;> first | rfl | exact absurd h (not_listsDeleted fun arn hq => by cases hq)

end Exchange

/-- The refusal of the first look that was refused. -/
def refusedLook? (heard : List Exchange) : Option ApiError :=
  (heard.filter Exchange.isLook).findSome? Exchange.refusal?

/-- What a pass takes for the absence of the entity: no ARN is recorded, or the first look that was
refused found nothing, or the share is only still listed. -/
def FoundAbsent {k : Kind} (r : Resource k) (heard : List Exchange) : Prop :=
  r.arn = none ∨ (∃ e ∈ refusedLook? heard, e.kind = .notFound) ∨ ∃ x ∈ heard, x.ListsDeleted

/-- How refusals stop a pass. -/
structure FailStop {k : Kind} (r : Resource k) (heard : List Exchange)
    (out : Except Failure (Reconciled k)) : Prop where
  /-- Nothing is asked for an object that asks for what can never be reached. -/
  rejected : ∀ e, k.manager.validate r = .error e → heard = [] ∧ out = .error e
  /-- What follows a refusal is a creation after a look that found nothing. -/
  stops : heard.Pairwise fun x y => ∀ e ∈ x.refusal?,
    x.isLook = true ∧ e.kind = .notFound ∧ y.creates = true
  /-- Any other refusal is what the pass fails with. -/
  fails : ∀ x ∈ heard, ∀ e ∈ x.refusal?, ¬ (x.isLook = true ∧ e.kind = .notFound) →
    out = .error (.api e)
  creates_iff : (∃ x ∈ heard, x.creates = true) ↔
    k.manager.validate r = .ok () ∧ FoundAbsent r heard
  /-- What is created is the entity that the object describes. -/
  creation_eq : ∀ x ∈ heard, x.creates = true → x.1 = r.creation
  /-- Nothing follows a creation. -/
  creation_last : heard.Pairwise fun x _ => x.creates = false
  /-- Nothing is changed before a creation. -/
  creation_alone : heard.Pairwise fun x y => y.creates = true → x.isLook = true

section Looks

variable {k : Kind} {r : Resource k} {σ : Type} {service : Service σ} {s s₁ s₂ : σ}
  {looks said : List Exchange} {x : Except Failure (Resource k)}

theorem isLook_of_readOne (hlook : Dialogue service (k.manager.readOne r) s looks x s₁) :
    ∀ y ∈ looks, y.isLook = true := hlook.asked (asks_readOne r)

/-- What is not a look says nothing about the absence of the entity. -/
theorem foundAbsent_append (hsaid : ∀ y ∈ said, y.isLook = false) :
    FoundAbsent r (looks ++ said) ↔ FoundAbsent r looks := by
  have hrefused : refusedLook? (looks ++ said) = refusedLook? looks := by
    have hnil : said.filter Exchange.isLook = [] :=
      List.filter_eq_nil_iff.2 fun y hy => by simp [hsaid y hy]
    rw [refusedLook?, List.filter_append, hnil, List.append_nil, ← refusedLook?]
  have hdeleted : (∃ y ∈ looks ++ said, y.ListsDeleted) ↔ ∃ y ∈ looks, y.ListsDeleted := by
    constructor
    · rintro ⟨y, hy, h⟩
      rcases List.mem_append.1 hy with hy | hy
      · exact ⟨y, hy, h⟩
      · have hlook := Exchange.isLook_of_listsDeleted h
        rw [hsaid y hy] at hlook
        cases hlook
    · rintro ⟨y, hy, h⟩
      exact ⟨y, List.mem_append_left _ hy, h⟩
  rw [FoundAbsent, hrefused, hdeleted, ← FoundAbsent]

/-- A look fails with the refusal that it met, if it met one. -/
theorem refusedLook_eq_some_iff (hlook : Dialogue service (k.manager.readOne r) s looks x s₁)
    (a : ApiError) : refusedLook? looks = some a ↔ x = .error (.api a) := by
  have hall : looks.filter Exchange.isLook = looks :=
    List.filter_eq_self.2 (isLook_of_readOne hlook)
  rw [refusedLook?, hall]
  constructor
  · intro h
    obtain ⟨y, hy, hrefused⟩ := List.exists_of_findSome?_eq_some h
    exact (stopsOn_readOne r).eq_of_refused hlook hy hrefused
  · rintro rfl
    rcases (raises_readOne r).dialogue_cases hlook with h | ⟨y, hy, b, hb, hout⟩
    · cases h
    · cases hout
      cases hfirst : looks.findSome? Exchange.refusal? with
      | none =>
        rw [List.findSome?_eq_none_iff.1 hfirst y hy] at hb
        cases hb
      | some c =>
        obtain ⟨z, hz, hrefused⟩ := List.exists_of_findSome?_eq_some hfirst
        cases (stopsOn_readOne r).eq_of_refused hlook hz hrefused
        rfl

/-- **A look finds the entity absent exactly if it fails for that reason.** -/
theorem foundAbsent_iff (hlook : Dialogue service (k.manager.readOne r) s looks x s₁) :
    FoundAbsent r looks ↔ ∃ e, x = .error e ∧ e.isNotFound = true := by
  have hsilent := readOne_eq_notFound_iff hlook
  constructor
  · rintro (harn | ⟨a, ha, hkind⟩ | hdeleted)
    · exact ⟨_, hsilent.2 (.inl harn), rfl⟩
    · exact ⟨_, (refusedLook_eq_some_iff hlook a).1 ha, by simpa [Failure.isNotFound] using hkind⟩
    · exact ⟨_, hsilent.2 (.inr hdeleted), rfl⟩
  · rintro ⟨e, rfl, he⟩
    rcases (raises_readOne r).dialogue_cases hlook with rfl | ⟨-, -, a, -, rfl⟩
    · exact (hsilent.1 rfl).imp_right .inr
    · exact .inr (.inl ⟨a, (refusedLook_eq_some_iff hlook a).2 rfl,
        by simpa [Failure.isNotFound] using he⟩)

end Looks

/-! ## The ways of a pass -/

section Ways

variable {k : Kind} {r : Resource k} {σ : Type} {service : Service σ} {s s₁ s₂ : σ}
  {looks said : List Exchange} {latest : Resource k}

theorem failStop_rejected {e : Failure} (hvalid : k.manager.validate r = .error e) :
    FailStop r [] (.error e) where
  rejected e' he := by
    rw [hvalid] at he
    cases he
    exact ⟨rfl, rfl⟩
  stops := .nil
  fails _ hx := absurd hx List.not_mem_nil
  creates_iff := by simp [hvalid]
  creation_eq _ hx := absurd hx List.not_mem_nil
  creation_last := .nil
  creation_alone := .nil

theorem failStop_lost {e : Failure} (hvalid : k.manager.validate r = .ok ())
    (hlook : Dialogue service (k.manager.readOne r) s looks (.error e) s₁)
    (he : e.isNotFound = false) : FailStop r looks (.error e) := by
  have hnone : ∀ x ∈ looks, x.creates = false := fun x hx =>
    Exchange.not_creates_of_isLook (isLook_of_readOne hlook x hx)
  have hpresent : ¬ FoundAbsent r looks := by
    rw [foundAbsent_iff hlook]
    rintro ⟨e', h, he'⟩
    cases h
    rw [he] at he'
    cases he'
  refine ⟨fun e' h => ?_, ?_, fun x hx a ha _ => ?_, iff_of_false ?_ fun h => hpresent h.2,
    fun x hx h => ?_, ?_, ?_⟩
  · rw [hvalid] at h
    cases h
  · exact (stopsOn_readOne r).pairwise_refused hlook
  · cases (stopsOn_readOne r).eq_of_refused hlook hx ha
    rfl
  · rintro ⟨x, hx, h⟩
    rw [hnone x hx] at h
    cases h
  · rw [hnone x hx] at h
    cases h
  · exact List.pairwise_of_forall_mem_list fun x hx _ _ => hnone x hx
  · exact List.pairwise_of_forall_mem_list fun x hx _ _ _ => isLook_of_readOne hlook x hx

theorem failStop_created {e : Failure} {x : Except Failure (Resource k)} {region : Option String}
    {now : Instant} (hvalid : k.manager.validate r = .ok ())
    (hlook : Dialogue service (k.manager.readOne r) s looks (.error e) s₁)
    (he : e.isNotFound = true) (hcreate : Dialogue service (k.manager.create r) s₁ said x s₂) :
    FailStop r (looks ++ said) (x.map fun created => conclude region now created false) := by
  obtain ⟨answer, -, rfl, hanswer⟩ := create_cases hcreate
  have hlooks := isLook_of_readOne hlook
  have hcreates : Exchange.creates ⟨r.creation, answer⟩ = true := creates_creation r answer
  have hnone : ∀ x ∈ looks, x.creates = false := fun x hx =>
    Exchange.not_creates_of_isLook (hlooks x hx)
  -- the look may have been refused, but then only because the entity is absent
  have habsent : ∀ x ∈ looks, ∀ a ∈ x.refusal?, x.isLook = true ∧ a.kind = .notFound := by
    intro x hx a ha
    cases (stopsOn_readOne r).eq_of_refused hlook hx ha
    exact ⟨hlooks x hx, by simpa [Failure.isNotFound] using he⟩
  refine ⟨fun e' h => ?_, ?_, fun x hx a ha hother => ?_, iff_of_true ?_ ⟨hvalid, ?_⟩,
    fun x hx h => ?_, ?_, ?_⟩
  · rw [hvalid] at h
    cases h
  · refine List.pairwise_append.2 ⟨?_, List.pairwise_singleton _ _, fun x hx y hy a ha => ?_⟩
    · exact (stopsOn_readOne r).pairwise_refused hlook
    · cases List.mem_singleton.1 hy
      exact ⟨(habsent x hx a ha).1, (habsent x hx a ha).2, hcreates⟩
  · rcases List.mem_append.1 hx with hx | hx
    · exact absurd (habsent x hx a ha) hother
    · cases List.mem_singleton.1 hx
      rcases hanswer with ⟨b, rfl, rfl⟩ | ⟨v, y, rfl, -, -⟩
      · cases ha
        rfl
      · cases ha
  · exact ⟨_, List.mem_append_right _ List.mem_cons_self, hcreates⟩
  · refine (foundAbsent_append fun y hy => ?_).2 ((foundAbsent_iff hlook).2 ⟨e, rfl, he⟩)
    cases List.mem_singleton.1 hy
    exact not_isLook_creation r answer
  · rcases List.mem_append.1 hx with hx | hx
    · rw [hnone x hx] at h
      cases h
    · cases List.mem_singleton.1 hx
      rfl
  · exact List.pairwise_append.2
      ⟨List.pairwise_of_forall_mem_list fun x hx _ _ => hnone x hx, List.pairwise_singleton _ _,
        fun x hx _ _ => hnone x hx⟩
  · exact List.pairwise_append.2
      ⟨List.pairwise_of_forall_mem_list fun x hx _ _ _ => hlooks x hx, List.pairwise_singleton _ _,
        fun x hx _ _ _ => hlooks x hx⟩

theorem failStop_found {x : Except Failure (Resource k × Bool)} {region : Option String}
    {now : Instant} (hvalid : k.manager.validate r = .ok ())
    (hlook : Dialogue service (k.manager.readOne r) s looks (.ok latest) s₁)
    (hline : Dialogue service (bringInLine k.manager r latest) s₁ said x s₂) :
    FailStop r (looks ++ said) (x.map fun x => conclude region now x.1 x.2) := by
  have hchange := hline.asked (asks_bringInLine r latest)
  have hgranted := (stopsOn_readOne r).granted hlook
  have hnone : ∀ x ∈ looks ++ said, x.creates = false := by
    intro x hx
    rcases List.mem_append.1 hx with hx | hx
    · exact Exchange.not_creates_of_isLook (isLook_of_readOne hlook x hx)
    · exact Exchange.not_creates_of_isChange (hchange x hx)
  have hpresent : ¬ FoundAbsent r (looks ++ said) := by
    rw [foundAbsent_append fun y hy => Exchange.not_isLook_of_isChange (hchange y hy),
      foundAbsent_iff hlook]
    rintro ⟨e, h, -⟩
    cases h
  refine ⟨fun e' h => ?_, ?_, fun x hx a ha _ => ?_, iff_of_false ?_ fun h => hpresent h.2,
    fun x hx h => ?_, ?_, ?_⟩
  · rw [hvalid] at h
    cases h
  · refine List.pairwise_append.2 ⟨?_, ?_, fun x hx y _ a ha => ?_⟩
    · exact (stopsOn_readOne r).pairwise_refused hlook
    · exact (stopsOn_bringInLine r latest).pairwise_refused hline
    · simp [hgranted x hx] at ha
  · rcases List.mem_append.1 hx with hx | hx
    · simp [hgranted x hx] at ha
    · cases (stopsOn_bringInLine r latest).eq_of_refused hline hx ha
      rfl
  · rintro ⟨x, hx, h⟩
    rw [hnone x hx] at h
    cases h
  · rw [hnone x hx] at h
    cases h
  · exact List.pairwise_of_forall_mem_list fun x hx _ _ => hnone x hx
  · exact List.pairwise_of_forall_mem_list fun x _ y hy h => by simp [hnone y hy] at h

end Ways

/-- **Refusals stop a pass,** over an object of either kind and whatever the answers are. -/
theorem failStop_reconcile {k : Kind} {σ : Type} (service : Service σ) (region : Option String)
    (now : Instant) (r : Resource k) (s : σ) :
    FailStop r (transcript service (reconcile k.manager region now r) s)
      (run service (reconcile k.manager region now r) s).1 := by
  generalize hrun : run service (reconcile k.manager region now r) s = ended
  obtain ⟨out, s'⟩ := ended
  have hwalk := walk_of_dialogue (Dialogue.of_run hrun)
  generalize transcript service (reconcile k.manager region now r) s = heard at hwalk
  cases hwalk with
  | rejected hvalid => exact failStop_rejected hvalid
  | lost hvalid hlook he => exact failStop_lost hvalid hlook he
  | created hvalid hlook he hcreate => exact failStop_created hvalid hlook he hcreate
  | found hvalid hlook hline => exact failStop_found hvalid hlook hline

end ShareKeeper
