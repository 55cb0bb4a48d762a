import VirtioScsi.BlockRequests

/-!
# The local scatter-gather array

`VirtIOSCSI_DoIO` and `VirtIOSCSI_Submit` put the DMA entries of a request
into a local array `sg[]` and check the length of the chain afterwards.  Every
store is recorded with its index.  In both functions the entries go to
consecutive indices, so the array is left exactly by chains that are too long.
-/

namespace VirtioScsi

open Virtqueue

/-- The stores into `sg[]`, and the two counters. -/
structure SgStores where
  stores : List (VringSg × ℕ)
  outNum : ℕ
  inNum : ℕ
deriving DecidableEq, Repr

/-- `VirtIOSCSI_DoIO`: a loop over a DMA list stores at consecutive indices. -/
def doioSg (isWrite : Bool) (req resp data : List VringSg) : SgStores :=
  let outNum := req.length
  if isWrite then
    { stores := req.zipIdx 0 ++ data.zipIdx outNum ++
        resp.zipIdx (outNum + data.length)
      outNum := outNum + data.length
      inNum := resp.length }
  else
    { stores := req.zipIdx 0 ++ resp.zipIdx outNum ++
        data.zipIdx (outNum + resp.length)
      outNum := outNum
      inNum := resp.length + data.length }

/-- The data of a pipelined request: the slot's bounce buffer as one segment,
or the DMA list of the user's buffer. -/
inductive DataSegments where
  | bounce (segment : VringSg)
  | direct (segments : List VringSg)
deriving DecidableEq, Repr

def DataSegments.toList : DataSegments → List VringSg
  | .bounce segment => [segment]
  | .direct segments => segments

/-- `VirtIOSCSI_Submit`, with its four branches. -/
def submitSg (isWrite : Bool) (req resp : List VringSg) :
    DataSegments → SgStores
  | .bounce segment =>
      let outNum := req.length
      if isWrite then
        { stores := req.zipIdx 0 ++ [(segment, outNum)] ++ resp.zipIdx (outNum + 1)
          outNum := outNum + 1
          inNum := resp.length }
      else
        { stores := req.zipIdx 0 ++ resp.zipIdx outNum ++
            [(segment, outNum + resp.length)]
          outNum := outNum
          inNum := resp.length + 1 }
  | .direct segments =>
      let outNum := req.length
      if isWrite then
        { stores := req.zipIdx 0 ++ segments.zipIdx outNum ++
            resp.zipIdx (outNum + segments.length)
          outNum := outNum + segments.length
          inNum := resp.length }
      else
        { stores := req.zipIdx 0 ++ resp.zipIdx outNum ++
            segments.zipIdx (outNum + resp.length)
          outNum := outNum
          inNum := resp.length + segments.length }

/-- The stores are those of a scatter-gather list, from index 0 on. -/
structure SgStores.Fills (s : SgStores) (sg : SgList) : Prop where
  stores : s.stores = sg.segments.zipIdx 0
  outNum : s.outNum = sg.outNum
  inNum : s.inNum = sg.inNum

theorem doioSg_fills (isWrite : Bool) (req resp data : List VringSg) :
    (doioSg isWrite req resp data).Fills (buildSg isWrite req resp data) := by
  cases isWrite with
  | false => exact ⟨by simp [doioSg, buildSg, List.zipIdx_append], rfl, rfl⟩
  | true => exact ⟨by simp [doioSg, buildSg, List.zipIdx_append], rfl, rfl⟩

/-- The four branches of `Submit` build what the two of `DoIO` build. -/
theorem submitSg_fills (isWrite : Bool) (req resp : List VringSg)
    (data : DataSegments) :
    (submitSg isWrite req resp data).Fills
      (buildSg isWrite req resp data.toList) := by
  cases data with
  | bounce segment =>
      cases isWrite with
      | false =>
          exact ⟨by simp [submitSg, buildSg, DataSegments.toList,
            List.zipIdx_append], rfl, rfl⟩
      | true =>
          exact ⟨by simp [submitSg, buildSg, DataSegments.toList,
            List.zipIdx_append], rfl, rfl⟩
  | direct segments => exact doioSg_fills isWrite req resp segments

theorem buildSg_segments_length (isWrite : Bool) (req resp data : List VringSg) :
    (buildSg isWrite req resp data).segments.length =
      req.length + resp.length + data.length := by
  unfold buildSg
  split
  · simp only [List.length_append]
    omega
  · simp only [List.length_append]

/-! ## The two functions up to `AddBuf` -/

def submitData (data : ℕ) (length : BitVec 32) (env : DataEnv) :
    Option DataSegments :=
  if data ≠ 0 ∧ 0 < length.toNat ∧ length.toNat ≤ bounceBufSize then
    some (.bounce ⟨env.bouncePhys, length⟩)
  else (mapUserData data length env).2.map fun m => .direct m.segments

def doioBuild (isWrite : Bool) (req resp : List VringSg) (data : ℕ)
    (length : BitVec 32) (env : DataEnv) : Option SgStores :=
  (prepareDma data length env).map (doioSg isWrite req resp)

def submitBuild (isWrite : Bool) (req resp : List VringSg) (data : ℕ)
    (length : BitVec 32) (env : DataEnv) : Option SgStores :=
  (submitData data length env).map (submitSg isWrite req resp)

/-- The error both functions have at this point. -/
def sgError : Option SgStores → Int
  | none => hferrDma
  | some s => if maxSgEntries < s.outNum + s.inNum then hferrDma else 0

/-- Every store is inside the array, and a chain that is too long is an error. -/
def SgChecked (build : Option SgStores) : Prop :=
  ∀ s ∈ build, (∀ store ∈ s.stores, store.2 < maxSgEntries) ∧
    (maxSgEntries < s.outNum + s.inNum → sgError build = hferrDma)

theorem SgStores.Fills.inside_iff {s : SgStores} {sg : SgList}
    (h : s.Fills sg) (n : ℕ) :
    (∀ store ∈ s.stores, store.2 < n) ↔ sg.segments.length ≤ n := by
  rw [h.stores]
  constructor
  · intro hinside
    by_contra hlong
    have hlast : n < sg.segments.length := by omega
    have hstore : (sg.segments[n], n) ∈ sg.segments.zipIdx 0 := by
      rw [List.mem_zipIdx_iff_getElem?]
      exact List.getElem?_eq_getElem hlast
    exact absurd (hinside _ hstore) (lt_irrefl n)
  · intro hshort store hstore
    have hindex := (List.mem_zipIdx hstore).2.1
    omega

theorem sgChecked_map_iff {σ : Type} {fill : σ → SgStores} {sg : σ → SgList}
    (hfills : ∀ x, (fill x).Fills (sg x)) (mapped : Option σ) :
    SgChecked (mapped.map fill) ↔
      ∀ x ∈ mapped, (sg x).segments.length ≤ maxSgEntries := by
  cases mapped with
  | none => simp [SgChecked]
  | some x =>
      have hinside := (hfills x).inside_iff maxSgEntries
      simp only [SgChecked, Option.map_some, Option.mem_def, Option.some.injEq,
        forall_eq']
      constructor
      · intro hchecked
        exact hinside.mp hchecked.1
      · intro hshort
        refine ⟨hinside.mpr hshort, ?_⟩
        intro hlong
        rw [sgError, if_pos hlong]

/-- Both functions stay inside `sg[]` exactly if the DMA entries of the
request, the response and the data are at most 64 together. -/
theorem sg_inside_iff (isWrite : Bool) (req resp : List VringSg) (data : ℕ)
    (length : BitVec 32) (env : DataEnv) :
    (SgChecked (doioBuild isWrite req resp data length env) ↔
        ∀ segments ∈ prepareDma data length env,
          req.length + resp.length + segments.length ≤ maxSgEntries) ∧
      (SgChecked (submitBuild isWrite req resp data length env) ↔
        ∀ segments ∈ submitData data length env,
          req.length + resp.length + segments.toList.length ≤ maxSgEntries) := by
  constructor
  · unfold doioBuild
    rw [sgChecked_map_iff (doioSg_fills isWrite req resp)]
    simp only [buildSg_segments_length]
  · unfold submitBuild
    rw [sgChecked_map_iff (submitSg_fills isWrite req resp)]
    simp only [buildSg_segments_length]

section Sample

/-- A buffer of 64 DMA entries of one page. -/
def sampleFragmented : DataEnv :=
  ⟨List.replicate 64 ⟨0x10000, 4096⟩, true, 0x3000, true⟩

/-- Its entries fill the array, so those of the response are stored past it. -/
theorem sg_not_inside_sampleFragmented :
    ¬ SgChecked (doioBuild true [⟨0x1000, 51⟩] [⟨0x2000, 108⟩] 4096 262144
        sampleFragmented) ∧
      ¬ SgChecked (submitBuild true [⟨0x1000, 51⟩] [⟨0x2000, 108⟩] 4096 262144
        sampleFragmented) := by
  have hdoio : (⟨0x2000, 108⟩, 65) ∈ (doioSg true [⟨0x1000, 51⟩] [⟨0x2000, 108⟩]
      sampleFragmented.dma).stores := by decide
  constructor
  · intro hchecked
    exact absurd ((hchecked _ rfl).1 _ hdoio) (by decide)
  · intro hchecked
    exact absurd ((hchecked _ rfl).1 _ hdoio) (by decide)

end Sample

end VirtioScsi
