import SecurityProfiles.Naming.Hashed
import SecurityProfiles.Profiles.Name

namespace SecurityProfiles.Naming

open List

def nodeFinalizerSuffix : Str := "-deleted".toList

def nodeNameFits (nodeName : Str) : Bool := nodeName.length + nodeFinalizerSuffix.length ≤ maxLabelLength

def getLegacyFinalizerNodeString (nodeName : Str) : Str :=
  if nodeNameFits nodeName then []
  else nodeName.take (maxLabelLength - nodeFinalizerSuffix.length) ++ nodeFinalizerSuffix

section

variable (sha256 : Sha256)

def getFinalizerNodeString (nodeName : Str) : Str :=
  if nodeNameFits nodeName then nodeName ++ nodeFinalizerSuffix
  else
    match hashedName sha256 (maxLabelLength - nodeFinalizerSuffix.length) (nodeName.take 16) nodeName with
    | some hashed => hashed ++ nodeFinalizerSuffix
    | none => getLegacyFinalizerNodeString nodeName

/-- The finalizers that the daemon of the node may have added to a profile. -/
def nodeFinalizers (nodeName : Str) : List Str :=
  let legacy := getLegacyFinalizerNodeString nodeName
  getFinalizerNodeString sha256 nodeName :: if legacy ≠ [] then [legacy] else []

def sharedFinalizers (staleNodes nodeNames : List Str) : List Str :=
  ((nodeNames.filter (· ∉ staleNodes)).map getLegacyFinalizerNodeString).filter (· ≠ [])

/-- The finalizers to remove for the nodes, which are among the stale ones. -/
def staleNodeFinalizers (nodes staleNodes nodeNames : List Str) : List Str :=
  nodes.flatMap fun name =>
    let legacy := getLegacyFinalizerNodeString name
    getFinalizerNodeString sha256 name ::
      if legacy ≠ [] ∧ legacy ∉ sharedFinalizers staleNodes nodeNames then [legacy] else []

def isNodeFinalizer (finalizer : Str) : Bool := nodeFinalizerSuffix.isSuffixOf finalizer && '/' ∉ finalizer

/-- The node finalizers of a profile that do not belong to any of the nodes. -/
def deletedNodeFinalizers (finalizers nodeNames : List Str) : List Str :=
  finalizers.filter fun finalizer => isNodeFinalizer finalizer && finalizer ∉ nodeNames.flatMap
    (nodeFinalizers sha256)

end

section forms

/-- The name of a long node as it stands in its finalizer. -/
def shortened (sha256 : Sha256) (nodeName : Str) : Str :=
  nodeName.take 16 ++ '-' :: (sha256.hex nodeName).take 38

/-- The name of a long node as earlier releases had it in the finalizer. -/
def truncated (nodeName : Str) : Str := nodeName.take 55

variable {sha256 : Sha256} {name : Str}

theorem nodeNameFits_iff : nodeNameFits name = true ↔ name.length ≤ 55 := by
  have suffix : nodeFinalizerSuffix.length = 8 := by decide
  simp [nodeNameFits, maxLabelLength, suffix]

theorem finalizer_of_fits (fits : nodeNameFits name = true) :
    getFinalizerNodeString sha256 name = name ++ nodeFinalizerSuffix := by
  rw [getFinalizerNodeString, if_pos fits]

theorem finalizer_of_long (long : ¬nodeNameFits name = true) :
    getFinalizerNodeString sha256 name = shortened sha256 name ++ nodeFinalizerSuffix := by
  have length : (name.take 16).length = 16 := by
    rw [nodeNameFits_iff] at long
    rw [length_take]
    omega
  have room : maxLabelLength - nodeFinalizerSuffix.length = 55 := by decide
  have hashed : hashedName sha256 55 (name.take 16) name = some (shortened sha256 name) := by
    rw [hashedName, if_pos (by omega), length]
    rfl
  rw [getFinalizerNodeString, if_neg long, room, hashed]

theorem legacy_of_fits (fits : nodeNameFits name = true) : getLegacyFinalizerNodeString name = [] := by
  rw [getLegacyFinalizerNodeString, if_pos fits]

theorem legacy_of_long (long : ¬nodeNameFits name = true) :
    getLegacyFinalizerNodeString name = truncated name ++ nodeFinalizerSuffix := by
  have room : maxLabelLength - nodeFinalizerSuffix.length = 55 := by decide
  rw [getLegacyFinalizerNodeString, if_neg long, room]
  rfl

theorem legacy_ne_nil (long : ¬nodeNameFits name = true) : getLegacyFinalizerNodeString name ≠ [] := by
  rw [legacy_of_long long]
  exact append_ne_nil_of_right_ne_nil _ (by decide)

end forms

/-- Some live node has a long name that is cut off in the same way. -/
def CutAlike (staleNodes nodeNames : List Str) (stale : Str) : Prop :=
  ∃ live ∈ nodeNames, live ∉ staleNodes ∧ ¬nodeNameFits live = true ∧ truncated stale = truncated live

/-- What stands in the finalizers of the live node is not what stands in those removed for the stale one, which are
both of its finalizers unless the legacy one is kept for another node. -/
def Apart (sha256 : Sha256) (kept : Prop) (stale live : Str) : Prop :=
  match nodeNameFits stale, nodeNameFits live with
  | true, true => True
  | true, false => stale ≠ shortened sha256 live ∧ stale ≠ truncated live
  | false, true => shortened sha256 stale ≠ live ∧ (kept ∨ truncated stale ≠ live)
  | false, false => shortened sha256 stale ≠ truncated live ∧ (kept ∨ truncated stale ≠ shortened sha256 live)

section members

variable {sha256 : Sha256} {name finalizer : Str} {nodes staleNodes nodeNames : List Str}

theorem mem_nodeFinalizers : finalizer ∈ nodeFinalizers sha256 name ↔
    finalizer = getFinalizerNodeString sha256 name ∨
      (¬nodeNameFits name = true ∧ finalizer = getLegacyFinalizerNodeString name) := by
  rw [nodeFinalizers, mem_cons]
  by_cases fits : nodeNameFits name = true
  · simp [legacy_of_fits fits, fits]
  · simp [legacy_ne_nil fits, fits]

theorem mem_sharedFinalizers : finalizer ∈ sharedFinalizers staleNodes nodeNames ↔
    ∃ live ∈ nodeNames, live ∉ staleNodes ∧ ¬nodeNameFits live = true ∧
      finalizer = getLegacyFinalizerNodeString live := by
  simp only [sharedFinalizers, mem_filter, mem_map, decide_eq_true_eq]
  constructor
  · rintro ⟨⟨live, ⟨member, isLive⟩, rfl⟩, some'⟩
    exact ⟨live, member, isLive, fun fits => some' (legacy_of_fits fits), rfl⟩
  · rintro ⟨live, member, isLive, long, rfl⟩
    exact ⟨⟨live, ⟨member, isLive⟩, rfl⟩, legacy_ne_nil long⟩

/-- A stale node loses its finalizer. It loses the one of earlier releases too, unless a live node has the same. -/
theorem mem_staleNodeFinalizers : finalizer ∈ staleNodeFinalizers sha256 nodes staleNodes nodeNames ↔
    ∃ name ∈ nodes, finalizer = getFinalizerNodeString sha256 name ∨
      (¬nodeNameFits name = true ∧ finalizer = getLegacyFinalizerNodeString name ∧
        finalizer ∉ sharedFinalizers staleNodes nodeNames) := by
  simp only [staleNodeFinalizers, mem_flatMap, mem_cons]
  refine exists_congr fun name => and_congr_right fun _ => or_congr_right ?_
  by_cases fits : nodeNameFits name = true
  · simp [legacy_of_fits fits, fits]
  · by_cases shared : getLegacyFinalizerNodeString name ∈ sharedFinalizers staleNodes nodeNames
    · rw [if_neg fun unshared => unshared.2 shared]
      constructor
      · intro impossible
        cases impossible
      · rintro ⟨_, rfl, absent⟩
        exact absurd shared absent
    · rw [if_pos ⟨legacy_ne_nil fits, shared⟩, mem_singleton]
      constructor
      · rintro rfl
        exact ⟨fits, rfl, shared⟩
      · exact fun removed => removed.2.1

end members

section apart

variable {sha256 : Sha256} {stale live : Str}

theorem shortened_injective (collisionFree : (sha256.hex stale).take 38 = (sha256.hex live).take 38 → stale = live)
    (longStale : ¬nodeNameFits stale = true) (longLive : ¬nodeNameFits live = true)
    (same : shortened sha256 stale = shortened sha256 live) : stale = live := by
  rw [nodeNameFits_iff] at longStale longLive
  have lengths : (stale.take 16).length = (live.take 16).length := by
    simp only [length_take]
    omega
  obtain ⟨_, rest⟩ := append_inj same lengths
  exact collisionFree (List.cons.inj rest).2

theorem apart_iff {kept : Prop} (different : stale ≠ live)
    (collisionFree : (sha256.hex stale).take 38 = (sha256.hex live).take 38 → stale = live) :
    (getFinalizerNodeString sha256 stale ∉ nodeFinalizers sha256 live ∧
      (¬nodeNameFits stale = true → kept ∨ getLegacyFinalizerNodeString stale ≠ getFinalizerNodeString sha256 live))
      ↔
      Apart sha256 kept stale live := by
  rw [mem_nodeFinalizers, not_or, not_and]
  unfold Apart
  by_cases fitsStale : nodeNameFits stale = true <;> by_cases fitsLive : nodeNameFits live = true
  · simp [fitsStale, fitsLive, finalizer_of_fits, different]
  · simp [fitsStale, fitsLive, finalizer_of_fits, finalizer_of_long, legacy_of_long]
  · simp [fitsStale, fitsLive, finalizer_of_fits, finalizer_of_long, legacy_of_long]
  · have hashed : shortened sha256 stale ≠ shortened sha256 live := fun same =>
      different (shortened_injective collisionFree fitsStale fitsLive same)
    simp [fitsStale, fitsLive, finalizer_of_long, legacy_of_long, hashed]

theorem shared_iff {staleNodes nodeNames : List Str} (long : ¬nodeNameFits stale = true) :
    getLegacyFinalizerNodeString stale ∈ sharedFinalizers staleNodes nodeNames ↔
      CutAlike staleNodes nodeNames stale := by
  rw [mem_sharedFinalizers, legacy_of_long long]
  refine exists_congr fun other => and_congr_right fun _ => and_congr_right fun _ =>
    and_congr_right fun longOther => ?_
  rw [legacy_of_long longOther, append_left_inj]

end apart

/-- The finalizers removed for stale nodes are none of a live node exactly if the names of stale and live nodes are
apart in finalizers. The finalizers removed for deleted nodes never are those of an existing node. -/
theorem gone_nodes_finalizers (sha256 : Sha256) (nodes staleNodes nodeNames : List Str)
    (areStale : ∀ name ∈ nodes, name ∈ staleNodes)
    (collisionFree : sha256.CollisionFree 38 fun name => name ∈ nodes ∨ name ∈ nodeNames) :
    ((∀ finalizer ∈ staleNodeFinalizers sha256 nodes staleNodes nodeNames, ∀ live ∈ nodeNames, live ∉ staleNodes →
      finalizer ∉ nodeFinalizers sha256 live) ↔
      ∀ stale ∈ nodes, ∀ live ∈ nodeNames, live ∉ staleNodes →
        Apart sha256 (CutAlike staleNodes nodeNames stale) stale live) ∧
    ∀ finalizers, ∀ finalizer ∈ deletedNodeFinalizers sha256 finalizers nodeNames, ∀ name ∈ nodeNames,
      finalizer ∉ nodeFinalizers sha256 name := by
  have pair : ∀ stale ∈ nodes, ∀ live ∈ nodeNames, live ∉ staleNodes → stale ≠ live ∧
      ((sha256.hex stale).take 38 = (sha256.hex live).take 38 → stale = live) := by
    intro stale isNode live isName isLive
    refine ⟨fun same => isLive (same ▸ areStale stale isNode), ?_⟩
    exact collisionFree stale live (Or.inl isNode) (Or.inr isName)
  refine ⟨⟨fun kept stale isNode live isName isLive => ?_, fun apart finalizer removed live isName isLive => ?_⟩,
    ?_⟩
  · obtain ⟨different, noCollision⟩ := pair stale isNode live isName isLive
    refine (apart_iff different noCollision).mp ⟨?_, fun long => ?_⟩
    · exact kept _ (mem_staleNodeFinalizers.mpr ⟨stale, isNode, Or.inl rfl⟩) live isName isLive
    · by_cases shared : getLegacyFinalizerNodeString stale ∈ sharedFinalizers staleNodes nodeNames
      · exact Or.inl ((shared_iff long).mp shared)
      · refine Or.inr fun same => kept _ ?_ live isName isLive (mem_nodeFinalizers.mpr (Or.inl same))
        exact mem_staleNodeFinalizers.mpr ⟨stale, isNode, Or.inr ⟨long, rfl, shared⟩⟩
  · obtain ⟨stale, isNode, origin⟩ := mem_staleNodeFinalizers.mp removed
    obtain ⟨different, noCollision⟩ := pair stale isNode live isName isLive
    obtain ⟨currentApart, legacyApart⟩ :=
      (apart_iff different noCollision).mpr (apart stale isNode live isName isLive)
    rcases origin with rfl | ⟨long, rfl, notShared⟩
    · exact currentApart
    · intro member
      rcases mem_nodeFinalizers.mp member with same | ⟨longLive, same⟩
      · rcases legacyApart long with cutAlike | differs
        · exact notShared ((shared_iff long).mpr cutAlike)
        · exact differs same
      · exact notShared (mem_sharedFinalizers.mpr ⟨live, isName, isLive, longLive, same⟩)
  · intro finalizers finalizer removed name isName member
    have absent := (mem_filter.mp removed).2
    simp only [Bool.and_eq_true, decide_eq_true_eq] at absent
    exact absent.2 (mem_flatMap.mpr ⟨name, isName, member⟩)

section nodes

/-- Names of nodes, one of them longer than a finalizer has room for. -/
def longNode : ObjectName := ⟨List.replicate 56 'a', by decide⟩
def shortNode : ObjectName := ⟨List.replicate 55 'a', by decide⟩
def otherNode : ObjectName := ⟨List.replicate 55 'b', by decide⟩

theorem other_node_kept : staleNodeFinalizers plainHash [longNode.value] [longNode.value]
    [longNode.value, otherNode.value] =
      nodeFinalizers plainHash longNode.value ∧
    ∀ finalizer ∈ staleNodeFinalizers plainHash [longNode.value] [longNode.value] [longNode.value, otherNode.value],
      ∀ live ∈ [longNode.value, otherNode.value], live ∉ [longNode.value] →
      finalizer ∉ nodeFinalizers plainHash live := by
  have apart := (gone_nodes_finalizers plainHash [longNode.value] [longNode.value] [longNode.value, otherNode.value]
    (fun name member => member) ?_).1.mpr ?_
  · exact ⟨by decide, apart⟩
  · intro first second isFirst isSecond same
    have oneOf : ∀ name, name ∈ [longNode.value] ∨ name ∈ [longNode.value, otherNode.value] →
        name = longNode.value ∨ name = otherNode.value := by simp
    rcases oneOf first isFirst with rfl | rfl <;> rcases oneOf second isSecond with rfl | rfl
    · rfl
    · exact absurd same (by decide)
    · exact absurd same (by decide)
    · rfl
  · intro stale isStale live isName isLive
    have isLong : stale = longNode.value := by simpa using isStale
    have isOther : live = otherNode.value := by
      rcases mem_cons.mp isName with rfl | member
      · exact absurd mem_cons_self isLive
      · simpa using member
    rw [isLong, isOther]
    exact ⟨by decide, Or.inr (by decide)⟩

/-- Removing the finalizers of the longer name takes the finalizer of the live node. -/
theorem truncated_finalizer_taken : shortNode.value ∈ [longNode.value, shortNode.value] ∧
    shortNode.value ∉ [longNode.value] ∧ getFinalizerNodeString plainHash shortNode.value ∈
      staleNodeFinalizers plainHash [longNode.value] [longNode.value] [longNode.value, shortNode.value] := by
  decide

end nodes

end SecurityProfiles.Naming
