import ShareKeeper.Cluster
import ShareKeeper.Proofs.Reconcile

/-!
# The ARN in the stored object

The cluster stores an object as a JSON document, and the ARN of the entity behind it stands in the
status there (`Json.Names`). A patch of the status with an object that has an ARN records it, and
whoever decodes the document finds it again. Patches of the finalizers, resource versions and edits of
everything else in the document leave it alone.
-/

namespace ShareKeeper

namespace Json

/-! ## Members -/

theorem lookup_insertByKey (name : String) (v : Json) (l : List (String × Json)) (k : String) :
    lookup k (insertByKey Prod.fst (name, v) l) = if name = k then some v else lookup k l := by
  induction l with
  | nil => rfl
  | cons m rest ih =>
    obtain ⟨n, w⟩ := m
    unfold insertByKey
    split
    · rfl
    · split
      · next heq =>
        have heq : name = n := heq
        by_cases hk : name = k
        · simp [lookup, hk]
        · simp [lookup, hk, ← heq]
      · next hne =>
        have hne : name ≠ n := hne
        by_cases hk : n = k
        · have hnk : name ≠ k := fun h => hne (h.trans hk.symm)
          rw [lookup, if_pos hk, if_neg hnk, lookup, if_pos hk]
        · rw [lookup, if_neg hk, ih, lookup, if_neg hk]

theorem lookup_dropMember {name k : String} (h : k ≠ name) (l : List (String × Json)) :
    lookup k (dropMember name l) = lookup k l := by
  induction l with
  | nil => rfl
  | cons m rest ih =>
    obtain ⟨n, w⟩ := m
    by_cases hn : n = name
    · have hk : n ≠ k := fun hk => h (hk.symm.trans hn)
      have hdrop : dropMember name ((n, w) :: rest) = dropMember name rest := by
        simp [dropMember, hn]
      rw [hdrop, ih, lookup, if_neg hk]
    · have hkeep : dropMember name ((n, w) :: rest) = (n, w) :: dropMember name rest := by
        simp [dropMember, hn]
      rw [hkeep, lookup, lookup, ih]

theorem member?_setMember (j : Json) (name : String) (v : Json) (k : String) :
    (j.setMember name v).member? k = if name = k then some v else j.member? k :=
  lookup_insertByKey name v j.members k

/-! ## Merge patches -/

theorem mergeMembers_cons {name : String} {v : Json} (hv : v ≠ .null)
    (target rest : List (String × Json)) :
    mergeMembers target ((name, v) :: rest)
      = mergeMembers (insertByKey Prod.fst
          (name, mergePatch ((lookup name target).getD .null) v) target) rest := by
  cases v with
  | null => exact absurd rfl hv
  | _ =>
    rw [mergeMembers]
    exact hv

/-- A member that the patch does not name stays as it is. -/
theorem lookup_mergeMembers_of_not_mem {k : String} {patch : List (String × Json)}
    (h : k ∉ patch.map Prod.fst) (target : List (String × Json)) :
    lookup k (mergeMembers target patch) = lookup k target := by
  induction patch generalizing target with
  | nil => rw [mergeMembers]
  | cons m rest ih =>
    obtain ⟨name, v⟩ := m
    simp only [List.map_cons, List.mem_cons, not_or] at h
    by_cases hv : v = .null
    · rw [hv, mergeMembers, ih h.2, lookup_dropMember h.1]
    · rw [mergeMembers_cons hv, ih h.2, lookup_insertByKey, if_neg (Ne.symm h.1)]

/-- The first member that a patch names is patched, unless it is named again. -/
theorem lookup_mergeMembers_cons {name : String} {v : Json} (hv : v ≠ .null)
    {rest : List (String × Json)} (h : name ∉ rest.map Prod.fst) (target : List (String × Json)) :
    lookup name (mergeMembers target ((name, v) :: rest))
      = some (mergePatch ((lookup name target).getD .null) v) := by
  rw [mergeMembers_cons hv, lookup_mergeMembers_of_not_mem h, lookup_insertByKey, if_pos rfl]

theorem member?_mergePatch {name : String} {v : Json} (hv : v ≠ .null)
    {rest : List (String × Json)} (h : name ∉ rest.map Prod.fst) (target : Json) :
    (target.mergePatch (.object ((name, v) :: rest))).member? name
      = some (mergePatch ((target.member? name).getD .null) v) := by
  rw [mergePatch]
  exact lookup_mergeMembers_cons hv h target.members

/-! ## Equal documents -/

theorem lookup_of_sameMembers {a b : List (String × Json)} (h : sameMembers a b = true) {k : String}
    {x : Json} (hx : lookup k a = some x) : ∃ y, lookup k b = some y ∧ x.same y = true := by
  induction a generalizing b with
  | nil => cases hx
  | cons m rest ih =>
    obtain ⟨name, v⟩ := m
    cases b with
    | nil => cases h
    | cons m' rest' =>
      obtain ⟨name', v'⟩ := m'
      simp only [sameMembers, Bool.and_eq_true, decide_eq_true_eq] at h
      obtain ⟨⟨rfl, hsame⟩, hrest⟩ := h
      simp only [lookup] at hx ⊢
      split at hx
      · next hname =>
        cases hx
        exact ⟨v', if_pos hname, hsame⟩
      · next hname =>
        rw [if_neg hname]
        exact ih hrest hx

/-- Equal documents have equal members. -/
theorem member?_of_same {a b : Json} (h : a.same b = true) {k : String} {x : Json}
    (hx : a.member? k = some x) : ∃ y, b.member? k = some y ∧ x.same y = true := by
  cases a with
  | object ms =>
    cases b with
    | object ms' =>
      have hmembers : sameMembers ms ms' = true := by simpa [same] using h
      exact lookup_of_sameMembers hmembers hx
    | _ => simp [same] at h
  | _ => cases hx

/-- Equal documents have equal texts. -/
theorem text_of_same {a b : Json} (h : a.same b = true) {k s : String}
    (hs : a.member? k = some (.string s)) : b.member? k = some (.string s) := by
  obtain ⟨y, hy, hsame⟩ := member?_of_same h hs
  cases y with
  | string t =>
    have hst : s = t := by simpa [same] using hsame
    rw [hst]
    exact hy
  | _ => simp [same] at hsame

/-! ## The ARN in a document -/

/-- The document of an object names the entity with an ARN. -/
def Names (object : Json) (arn : String) : Prop :=
  ∃ status identity, object.member? "status" = some status ∧
    status.member? "ackResourceMetadata" = some identity ∧
    identity.member? "arn" = some (.string arn)

variable {object object' : Json} {arn : String}

theorem Names.congr (h : object.Names arn)
    (hstatus : object'.member? "status" = object.member? "status") : object'.Names arn := by
  obtain ⟨status, identity, hs, hi, ha⟩ := h
  exact ⟨status, identity, hstatus.trans hs, hi, ha⟩

theorem Names.of_same (h : object.Names arn) (hsame : object.same object' = true) :
    object'.Names arn := by
  obtain ⟨status, identity, hs, hi, ha⟩ := h
  obtain ⟨status', hs', hstatus⟩ := member?_of_same hsame hs
  obtain ⟨identity', hi', hidentity⟩ := member?_of_same hstatus hi
  exact ⟨status', identity', hs', hi', text_of_same hidentity ha⟩

/-- A member other than the status can be set to anything. -/
theorem Names.setMember (h : object.Names arn) {name : String} (hname : name ≠ "status") (v : Json) :
    (object.setMember name v).Names arn :=
  h.congr (by rw [member?_setMember, if_neg hname])

end Json

/-! ## Recording the ARN -/

section Recording

variable {k : Kind} {r : Resource k} {arn : String}

theorem exists_identity_of_arn (h : r.arn = some arn) :
    ∃ s i, r.status = some s ∧ s.identity = some i ∧ i.arn = some arn := by
  obtain ⟨s, hs, hidentity⟩ := Option.bind_eq_some_iff.1 h
  obtain ⟨i, hi, harn⟩ := Option.bind_eq_some_iff.1 hidentity
  exact ⟨s, i, hs, hi, harn⟩

/-- Both kinds of status begin with the identity. -/
theorem exists_encodeStatus_eq {s : Status k.Facts} {i : Identity} (h : s.identity = some i) :
    ∃ rest, k.encodeStatus s = .object (("ackResourceMetadata", i.encode) :: rest) ∧
      "ackResourceMetadata" ∉ rest.map Prod.fst := by
  cases k with
  | permission =>
    refine ⟨_, by rw [Kind.encodeStatus, Status.encodePermission, h]; rfl, ?_⟩
    simp
  | share =>
    refine ⟨_, by rw [Kind.encodeStatus, Status.encodeShare, h]; rfl, ?_⟩
    simp

theorem exists_encode_identity_eq {i : Identity} (h : i.arn = some arn) :
    ∃ rest, i.encode = .object (("arn", .string arn) :: rest) ∧ "arn" ∉ rest.map Prod.fst := by
  refine ⟨_, by rw [Identity.encode, h]; rfl, ?_⟩
  cases i.ownerAccountId <;> cases i.region <;> simp [Json.may]

theorem statusPatch_eq {s : Status k.Facts} (h : r.status = some s) :
    r.statusPatch = .object [("status", k.encodeStatus s)] := by
  rw [Resource.statusPatch, h]
  rfl

/-- **A patch of the status records the ARN.** -/
theorem names_mergePatch (h : r.arn = some arn) (object : Json) :
    (object.mergePatch r.statusPatch).Names arn := by
  obtain ⟨s, i, hs, hi, harn⟩ := exists_identity_of_arn h
  obtain ⟨fields, hstatus, hfields⟩ := exists_encodeStatus_eq hi
  obtain ⟨rest, hidentity, hrest⟩ := exists_encode_identity_eq harn
  rw [statusPatch_eq hs, hstatus, hidentity]
  have hnull : ∀ ms, Json.object ms ≠ .null := fun ms h => by cases h
  refine ⟨_, _, Json.member?_mergePatch (hnull _) (by simp) object,
    Json.member?_mergePatch (hnull _) hfields _, ?_⟩
  rw [Json.member?_mergePatch (by simp) hrest, Json.mergePatch]

end Recording

/-! ## Reading the ARN -/

/-- A computation that succeeds, in two parts. -/
theorem exists_of_bind_ok {ε α β : Type} {x : Except ε α} {f : α → Except ε β} {b : β}
    (h : x >>= f = .ok b) : ∃ a, x = .ok a ∧ f a = .ok b := by
  cases x with
  | error e => cases h
  | ok a => exact ⟨a, rfl, h⟩

section Reading

variable {arn : String}

/-- An optional member that is there and not null. -/
theorem optional_of_lookup {α : Type} {name : String} {read : Json → Except DecodeFault α}
    {ms : List (String × Json)} {j : Json} {o : Option α} (hj : Json.lookup name ms = some j)
    (hnull : j ≠ .null) (h : Json.optional name read ms = .ok o) : ∃ a, read j = .ok a ∧ o = some a := by
  have hread : Json.asOption read j = (read j).map some := by
    cases j with
    | null => exact absurd rfl hnull
    | _ => rfl
  rw [Json.optional, Json.field, hj] at h
  dsimp only at h
  rw [hread] at h
  cases hr : read j with
  | error e =>
    rw [hr] at h
    cases h
  | ok a =>
    rw [hr] at h
    cases h
    exact ⟨a, rfl, rfl⟩

/-- A document with a member is an object. -/
theorem exists_object_of_member? {j v : Json} {name : String} (h : j.member? name = some v) :
    ∃ ms, j = .object ms ∧ Json.lookup name ms = some v := by
  cases j with
  | object ms => exact ⟨ms, rfl, h⟩
  | _ => cases h

theorem arn_of_decode_identity {j : Json} {i : Identity}
    (harn : j.member? "arn" = some (.string arn)) (h : Identity.decode j = .ok i) :
    i.arn = some arn := by
  obtain ⟨ms, rfl, harn⟩ := exists_object_of_member? harn
  obtain ⟨a, ha, h⟩ := exists_of_bind_ok h
  obtain ⟨owner, -, h⟩ := exists_of_bind_ok h
  obtain ⟨region, -, h⟩ := exists_of_bind_ok h
  cases h
  obtain ⟨text, htext, rfl⟩ := optional_of_lookup harn (by simp) ha
  cases htext
  rfl

theorem identity_of_decodeStatus {k : Kind} {j identity : Json} {s : Status k.Facts}
    (hidentity : j.member? "ackResourceMetadata" = some identity) (hnull : identity ≠ .null)
    (h : k.decodeStatus j = .ok s) : ∃ i, Identity.decode identity = .ok i ∧ s.identity = some i := by
  obtain ⟨ms, rfl, hidentity⟩ := exists_object_of_member? hidentity
  cases k with
  | permission =>
    obtain ⟨o, ho, h⟩ := exists_of_bind_ok h
    iterate 9 obtain ⟨_, -, h⟩ := exists_of_bind_ok h
    cases h
    exact optional_of_lookup hidentity hnull ho
  | share =>
    obtain ⟨o, ho, h⟩ := exists_of_bind_ok h
    iterate 8 obtain ⟨_, -, h⟩ := exists_of_bind_ok h
    cases h
    exact optional_of_lookup hidentity hnull ho

/-- **Whoever decodes the document finds the ARN.** -/
theorem arn_of_decode {k : Kind} {object : Json} {r : Resource k} (hnames : object.Names arn)
    (h : Resource.decode k object = .ok r) : r.arn = some arn := by
  obtain ⟨status, identity, hstatus, hidentity, harn⟩ := hnames
  have hnull : ∀ {j v : Json} {name : String}, j.member? name = some v → j ≠ .null := by
    rintro _ v name h rfl
    cases h
  obtain ⟨ms, rfl, hlookup⟩ := exists_object_of_member? hstatus
  obtain ⟨metadata, -, h⟩ := exists_of_bind_ok h
  obtain ⟨spec, -, h⟩ := exists_of_bind_ok h
  obtain ⟨o, ho, h⟩ := exists_of_bind_ok h
  iterate 2 obtain ⟨_, -, h⟩ := exists_of_bind_ok h
  cases h
  obtain ⟨s, hs, rfl⟩ := optional_of_lookup hlookup (hnull hidentity) ho
  obtain ⟨i, hi, hsi⟩ := identity_of_decodeStatus hidentity (hnull harn) hs
  show s.identity.bind Identity.arn = some arn
  rw [hsi]
  exact arn_of_decode_identity harn hi

end Reading

/-! ## Patches of the cluster -/

namespace Cluster

variable {arn : String} {c : Cluster}

theorem names_withVersion {object : Json} (h : object.Names arn) (n : Nat) :
    (withVersion n object).Names arn := h.setMember (by decide) _

/-- A patch is refused without effect, or applied. -/
theorem patched_cases (c : Cluster) (f : Cluster → Cluster) :
    (∃ r rest, c.nextRefusal.1 = some r ∧ c.patched f = (.error r, { c with prepared := rest })) ∨
      ∃ rest, c.nextRefusal.1 = none ∧ c.patched f = (.ok (), f { c with prepared := rest }) := by
  obtain ⟨object, prepared, event⟩ := c
  cases prepared with
  | nil => exact .inr ⟨[], rfl, rfl⟩
  | cons r rest =>
    cases r with
    | none => exact .inr ⟨rest, rfl, rfl⟩
    | some r => exact .inl ⟨r, rest, rfl, rfl⟩

/-- A patch of the finalizers leaves the ARN alone, whether it is refused or not. -/
theorem names_patchFinalizers (h : c.object.Names arn) (p : FinalizerPatch) :
    (c.patchFinalizers p).2.object.Names arn := by
  obtain ⟨r, rest, -, hpatch⟩ | ⟨rest, -, hpatch⟩ := c.patched_cases (·.changeFinalizers p)
  · rw [patchFinalizers, hpatch]
    exact h
  · rw [patchFinalizers, hpatch]
    exact names_withVersion (h.setMember (by decide) _) _

variable {k : Kind} {r : Resource k}

/-- What is true of the patched document is true of the object as it is stored then, if it stays true of
an equal document and of one with another version. -/
theorem mergeStatus_of {P : Json → Prop} {patch : Json}
    (hsame : ∀ object, (c.object.mergePatch patch).same object = true → P object)
    (hversion : ∀ n, P (withVersion n (c.object.mergePatch patch))) :
    P (c.mergeStatus patch).object := by
  rw [mergeStatus]
  split
  · next hkept => exact hsame _ hkept
  · exact hversion _

/-- A patch of the status, once accepted, leaves the ARN of its object. -/
theorem names_mergeStatus (harn : r.arn = some arn) :
    (c.mergeStatus r.statusPatch).object.Names arn :=
  have hnames := names_mergePatch harn c.object
  mergeStatus_of (fun _ => hnames.of_same) (names_withVersion hnames)

/-- **A patch of the status that is accepted records the ARN.** -/
theorem names_of_accepted (harn : r.arn = some arn) (hc : c.nextRefusal.1 = none) :
    (c.patchStatus r.statusPatch).2.object.Names arn := by
  obtain ⟨e, rest, hnext, -⟩ | ⟨rest, -, hpatch⟩ := c.patched_cases (·.mergeStatus r.statusPatch)
  · rw [hc] at hnext
    cases hnext
  · rw [patchStatus, hpatch]
    exact names_mergeStatus harn

/-- A patch of the status for the entity that is recorded already. -/
theorem names_patchStatus (h : c.object.Names arn) (harn : r.arn = some arn) :
    (c.patchStatus r.statusPatch).2.object.Names arn := by
  obtain ⟨e, rest, -, hpatch⟩ | ⟨rest, -, hpatch⟩ := c.patched_cases (·.mergeStatus r.statusPatch)
  · rw [patchStatus, hpatch]
    exact h
  · rw [patchStatus, hpatch]
    exact names_mergeStatus harn

end Cluster

end ShareKeeper
