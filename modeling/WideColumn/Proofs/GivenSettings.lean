import WideColumn.Options.Alteration

/-!
# Given settings and usual ones

Options give some settings and leave others open. What is given counts, and what is left open has
its usual value: for a family this is the same for every table, whatever the family had before
(`WideColumn.FamilySettings.settles_toFamily`), and for the attributes of a table it is what the
table had (`WideColumn.AttributeChanges.settles_apply`). Both are said setting by setting.
-/

namespace WideColumn

/-- Whether a setting has the value given for it, or else the usual one. -/
structure Settled {α : Type} (given : Option α) (usual value : α) : Prop where
  of_given : ∀ wanted, given = some wanted → value = wanted
  of_absent : given = none → value = usual

/-- The value given, or else the usual one, settles a setting. -/
theorem settled_getD {α : Type} (given : Option α) (usual : α) :
    Settled given usual (given.getD usual) where
  of_given wanted found := by rw [found, Option.getD_some]
  of_absent absent := by rw [absent, Option.getD_none]

/-- A setting is settled by one value only. -/
theorem Settled.eq_getD {α : Type} {given : Option α} {usual value : α}
    (settled : Settled given usual value) : value = given.getD usual := by
  cases found : given with
  | none => exact settled.of_absent found
  | some wanted => exact settled.of_given wanted found

/-- Whether a family has the settings that are given for it, and the usual values of all others. -/
structure FamilySettings.Settles (settings : FamilySettings) (family : Family) : Prop where
  versions : Settled settings.versions 3 family.versions
  compression : Settled settings.compression .none family.compression
  inMemory : Settled settings.inMemory false family.inMemory
  blockCache : Settled settings.blockCache true family.blockCache
  blockSize : Settled settings.blockSize 65536 family.blockSize
  ttl : Settled settings.ttl 2147483647 family.ttl
  bloomFilter : Settled settings.bloomFilter false family.bloomFilter
  replicationScope : Settled settings.replicationScope 0 family.replicationScope

/-- The family made of settings has those that are given, and else the usual ones. -/
theorem FamilySettings.settles_toFamily (settings : FamilySettings) :
    settings.Settles settings.toFamily where
  versions := settled_getD settings.versions 3
  compression := settled_getD settings.compression .none
  inMemory := settled_getD settings.inMemory false
  blockCache := settled_getD settings.blockCache true
  blockSize := settled_getD settings.blockSize 65536
  ttl := settled_getD settings.ttl 2147483647
  bloomFilter := settled_getD settings.bloomFilter false
  replicationScope := settled_getD settings.replicationScope 0

/-- Settings make one family. -/
theorem FamilySettings.Settles.eq_toFamily {settings : FamilySettings} {family : Family}
    (settles : settings.Settles family) : family = settings.toFamily := by
  obtain ⟨_, _, _, _, _, _, _, _⟩ := family
  rw [FamilySettings.toFamily, Family.mk.injEq]
  exact ⟨settles.versions.eq_getD, settles.compression.eq_getD, settles.inMemory.eq_getD,
    settles.blockCache.eq_getD, settles.blockSize.eq_getD, settles.ttl.eq_getD,
    settles.bloomFilter.eq_getD, settles.replicationScope.eq_getD⟩

/-- Whether attributes differ from former ones exactly where changes are given. -/
structure AttributeChanges.Settles (changes : AttributeChanges)
    (former changed : TableAttributes) : Prop where
  maxFileSize : Settled changes.maxFileSize former.maxFileSize changed.maxFileSize
  readOnly : Settled changes.readOnly former.readOnly changed.readOnly
  memstoreFlushSize :
    Settled changes.memstoreFlushSize former.memstoreFlushSize changed.memstoreFlushSize
  deferredLogFlush :
    Settled changes.deferredLogFlush former.deferredLogFlush changed.deferredLogFlush

/-- Changes that are applied give attributes their values and leave all others. -/
theorem AttributeChanges.settles_apply (changes : AttributeChanges) (former : TableAttributes) :
    changes.Settles former (changes.apply former) where
  maxFileSize := settled_getD changes.maxFileSize former.maxFileSize
  readOnly := settled_getD changes.readOnly former.readOnly
  memstoreFlushSize := settled_getD changes.memstoreFlushSize former.memstoreFlushSize
  deferredLogFlush := settled_getD changes.deferredLogFlush former.deferredLogFlush

end WideColumn
