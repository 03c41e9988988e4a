import DeviceTrust.Proofs.Jws.ChainOfTrust

/-!
# Which root keys count

A signing key is verified with the first root key that has the id it names. No other root key has
an influence: not one with another id, however similar, and not a later one with the same id, also
where the first one does not verify the signature. So two lists of root keys serve alike if they
have the same first key with this id, or none both.

Results:
* `RootKey.agree_of_filter_eq`, `RootKey.agree_of_perm`, `RootKey.agree_append`: lists that agree.
* `outcome_congr`: the outcome depends on the root keys only by the first one that is named.
* `authenticateManifest_first_key`: the outcomes with two lists of root keys.
-/

namespace DeviceTrust.Jws

namespace RootKey

variable {keys keys' extra : List RootKey} {id : String}

/-- The lists have the same first key with the id, or both have none. -/
def Agree (id : String) (keys keys' : List RootKey) : Prop :=
  ∀ key, IsFirst keys id key ↔ IsFirst keys' id key

theorem agree_iff : Agree id keys keys' ↔ find? keys id = find? keys' id := by
  simp only [Agree, ← find?_eq_some_iff]
  exact ⟨Option.ext, fun h key => by rw [h]⟩

/-! ## Lists that agree -/

/-- Keys with other ids play no part. -/
theorem agree_of_filter_eq (h : keys.filter (·.id == id) = keys'.filter (·.id == id)) :
    Agree id keys keys' := by
  rw [agree_iff, find?, find?, ← List.head?_filter, ← List.head?_filter, h]

/-- Where the ids differ from each other, the first key with an id is the only one. -/
theorem isFirst_iff_mem (h : (keys.map (·.id)).Nodup) {key : RootKey} :
    IsFirst keys id key ↔ key ∈ keys ∧ key.id = id := by
  constructor
  · rintro ⟨hid, before, after, rfl, -⟩
    exact ⟨by simp, hid⟩
  · rintro ⟨hmem, hid⟩
    obtain ⟨before, after, rfl⟩ := List.append_of_mem hmem
    refine ⟨hid, before, after, rfl, fun k hk heq => ?_⟩
    rw [List.map_append, List.map_cons, List.nodup_append] at h
    exact h.2.2 k.id (List.mem_map_of_mem hk) key.id List.mem_cons_self (heq.trans hid.symm)

/-- The order of keys with different ids plays no part. -/
theorem agree_of_perm (h : keys.Perm keys') (hnodup : (keys.map (·.id)).Nodup) (id : String) :
    Agree id keys keys' := by
  have hnodup' : (keys'.map (·.id)).Nodup := (h.map _).nodup_iff.mp hnodup
  intro key
  rw [isFirst_iff_mem hnodup, isFirst_iff_mem hnodup', h.mem_iff]

/-- Keys behind one with the same id play no part. -/
theorem agree_append (h : ∀ key ∈ extra, ∃ earlier ∈ keys, earlier.id = key.id) (id : String) :
    Agree id (keys ++ extra) keys := by
  rw [agree_iff, find?, find?, List.find?_append]
  cases hfind : keys.find? (·.id == id) with
  | some key => rfl
  | none =>
    rw [List.find?_eq_none] at hfind
    have hextra : extra.find? (·.id == id) = none := by
      rw [List.find?_eq_none]
      rintro key hkey hid
      obtain ⟨earlier, hearlier, heq⟩ := h key hkey
      rw [← heq] at hid
      exact hfind earlier hearlier hid
    rw [hextra]
    rfl

/-- The keys behind the first one with the id play no part, and neither do those before it. -/
theorem IsFirst.agree_singleton {key : RootKey} (h : IsFirst keys id key) :
    Agree id keys [key] := by
  rw [agree_iff, find?_eq_some_iff.mpr h, find?_eq_some_iff.mpr]
  exact ⟨h.1, [], [], rfl, fun _ hk => nomatch hk⟩

end RootKey

/-! ## Outcomes -/

variable {keys keys' : List RootKey}

theorem checkRoot_congr {document : KeyDocument}
    (h : RootKey.Agree document.keyId keys keys') :
    checkRoot keys document = checkRoot keys' document := by
  rw [checkRoot, checkRoot, RootKey.agree_iff.mp h]

/-- A JWS embeds one signing key. -/
theorem EmbedsKey.unique {text : Bytes} {outer outer' : Compact} {document document' : KeyDocument}
    (h : EmbedsKey text outer document) (h' : EmbedsKey text outer' document') :
    document = document' := by
  obtain ⟨embedded, hembeds, hdocument⟩ := h
  obtain ⟨embedded', hembeds', hdocument'⟩ := h'
  rw [← openManifest_eq_ok_iff] at hembeds hembeds'
  obtain ⟨-, rfl⟩ := Prod.mk.inj (Except.ok.inj (hembeds.symm.trans hembeds'))
  rw [← openKey_eq_ok_iff] at hdocument hdocument'
  exact Except.ok.inj (hdocument.symm.trans hdocument')

/-- The root keys are looked at once, for the id that the signing key names. -/
theorem outcome_congr {manifest jws : Bytes}
    (h : ∀ outer document, EmbedsKey jws outer document →
      RootKey.Agree document.keyId keys keys') :
    outcome manifest jws keys = outcome manifest jws keys' := by
  refine bind_congr_of_ok fun (outer, embedded) hembeds => ?_
  have hkey : signingKey (utf8 embedded) keys = signingKey (utf8 embedded) keys' := by
    refine bind_congr_of_ok fun document hdocument => ?_
    rw [openManifest_eq_ok_iff] at hembeds
    rw [openKey_eq_ok_iff] at hdocument
    rw [checkRoot_congr (h outer document ⟨embedded, hembeds, hdocument⟩)]
  simp only [hkey]

/-- Lists that agree on every id serve alike, also for what is left in memory. -/
theorem authenticate_congr (h : ∀ id, RootKey.Agree id keys keys') (manifest jws : Bytes) :
    authenticate manifest jws keys = authenticate manifest jws keys' := by
  have hfind : RootKey.find? keys = RootKey.find? keys' :=
    funext fun id => RootKey.agree_iff.mp (h id)
  have hkey (text : Bytes) (layout : Layout) :
      verifySigningKey text keys layout = verifySigningKey text keys' layout := by
    rw [verifySigningKey, verifySigningKey, hfind]
  simp only [authenticate, hkey]

/-- The outcomes with two lists of root keys. If the lists agree on every id, an authentication ends
in the same way with both and leaves the same memory; so it does if keys with different ids are put
in another order, and if keys are added behind others with their ids. Of the ids only the one that
the signing key of the JWS names matters: keys with other ids may be added or left out anywhere, and
the first key with this id decides by itself. -/
theorem authenticateManifest_first_key (manifest jws scratch : Bytes) (keys keys' : List RootKey) :
    ((∀ id, RootKey.Agree id keys keys') →
      authenticateManifest manifest jws keys scratch =
        authenticateManifest manifest jws keys' scratch) ∧
    (keys.Perm keys' → (keys.map (·.id)).Nodup →
      authenticateManifest manifest jws keys scratch =
        authenticateManifest manifest jws keys' scratch) ∧
    (∀ extra : List RootKey, (∀ key ∈ extra, ∃ earlier ∈ keys, earlier.id = key.id) →
      authenticateManifest manifest jws (keys ++ extra) scratch =
        authenticateManifest manifest jws keys scratch) ∧
    ((∀ outer document, EmbedsKey jws outer document →
        keys.filter (·.id == document.keyId) = keys'.filter (·.id == document.keyId)) →
      (authenticateManifest manifest jws keys scratch).1 =
        (authenticateManifest manifest jws keys' scratch).1) ∧
    ∀ outer document key, EmbedsKey jws outer document →
      RootKey.IsFirst keys document.keyId key →
      (authenticateManifest manifest jws keys scratch).1 =
        (authenticateManifest manifest jws [key] scratch).1 := by
  have hsame (keys keys' : List RootKey) (h : ∀ id, RootKey.Agree id keys keys') :
      authenticateManifest manifest jws keys scratch =
        authenticateManifest manifest jws keys' scratch := by
    rw [authenticateManifest, authenticateManifest, authenticate_congr h]
  have houtcome (keys' : List RootKey) (h : ∀ outer document, EmbedsKey jws outer document →
      RootKey.Agree document.keyId keys keys') :
      (authenticateManifest manifest jws keys scratch).1 =
        (authenticateManifest manifest jws keys' scratch).1 := by
    rw [authenticateManifest_fst_eq, authenticateManifest_fst_eq, outcome_congr h]
  refine ⟨hsame keys keys', fun hperm hnodup => ?_, fun extra hextra => ?_, fun hfilter => ?_, ?_⟩
  · exact hsame keys keys' (RootKey.agree_of_perm hperm hnodup)
  · exact hsame (keys ++ extra) keys (RootKey.agree_append hextra)
  · exact houtcome keys' fun outer document hembeds =>
      RootKey.agree_of_filter_eq (hfilter outer document hembeds)
  · intro outer document key hembeds hfirst
    refine houtcome [key] fun outer' document' hembeds' => ?_
    rw [← hembeds.unique hembeds']
    exact hfirst.agree_singleton

/-- A signing key that names the root key `a`, which does not verify it. That key decides, wherever
another one named `A` stands, and although one with a different modulus follows it. -/
theorem first_key_shadows :
    let jws := utf8 "eyJzandrIjoiZXlKcmFXUWlPaUpoSW4wLkFBLkFBIn0.AA.AA"
    let scratch : Bytes := List.replicate 3358 0
    let upper : RootKey := ⟨"A", [], [3]⟩
    let first : RootKey := ⟨"a", [35], [3]⟩
    let second : RootKey := ⟨"a", [], [3]⟩
    (authenticateManifest [] jws [first, upper] scratch).1 = .error .invalidPadding ∧
      (authenticateManifest [] jws [upper, first] scratch).1 = .error .invalidPadding ∧
      (authenticateManifest [] jws ([first, upper] ++ [second]) scratch).1 =
        .error .invalidPadding ∧
      (authenticateManifest [] jws [second, first, upper] scratch).1 =
        .error .invalidSignatureLength := by
  intro jws scratch upper first second
  have hsize : scratchSize ≤ scratch.length := List.length_replicate.ge
  have hfirst : (authenticateManifest [] jws [first, upper] scratch).1 = .error .invalidPadding := by
    rw [authenticateManifest_fst_eq, if_pos hsize]
    decide +kernel
  have hsecond : (authenticateManifest [] jws [second, first, upper] scratch).1 =
      .error .invalidSignatureLength := by
    rw [authenticateManifest_fst_eq, if_pos hsize]
    decide +kernel
  obtain ⟨-, hperm, hbehind, -⟩ :=
    authenticateManifest_first_key [] jws scratch [first, upper] [upper, first]
  refine ⟨hfirst, ?_, ?_, hsecond⟩
  · rw [← hperm (List.Perm.swap _ _ _) (by decide +kernel)]
    exact hfirst
  · rw [hbehind [second] (by simp [first, second])]
    exact hfirst

end DeviceTrust.Jws
