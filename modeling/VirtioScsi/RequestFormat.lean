import VirtioScsi.BlockCdb
import VirtioScsi.RequestQueue

/-!
# The bytes of a request and a response

`struct virtio_scsi_req_cmd` and `struct virtio_scsi_resp_cmd`
(`virtio_scsi_cmd.h`) as they lie in memory, with the LUN field in the SAM-2
format.  The device parses the one and writes the other; what either side reads
is what the other meant.
-/

namespace VirtioScsi

open ByteOrder

/-! ## Requests -/

def sam2SingleLevelLun : BitVec 8 := 0x40

/-- `virtio_scsi_set_lun`. -/
def virtioScsiSetLun (target : BitVec 8) (lunId : BitVec 16) : List (BitVec 8) :=
  [1, target, (lunId >>> 8).setWidth 8 ||| sam2SingleLevelLun, (lunId &&& 0xFF).setWidth 8,
    0, 0, 0, 0]

/-- The 51 bytes of a request: LUN, `id` in the order of the processor,
`task_attr` (simple), `prio`, `crn` and the CDB. -/
def requestBytes (target : BitVec 8) (lunId : BitVec 16) (id : BitVec 64) (cdb : Cdb) :
    List (BitVec 8) :=
  virtioScsiSetLun target lunId ++ List.ofFn (storeBE 8 id) ++ [0, 0, 0] ++ requestCdb cdb

/-- What a device finds in a request. -/
structure DeviceRequest where
  target : BitVec 8
  lun : BitVec 16
  cdb : Cdb
deriving DecidableEq, Repr

/-- A device takes only LUNs in the single-level format, of 14 bits. -/
def parseRequest (bytes : List (BitVec 8)) : Option DeviceRequest :=
  match bytes with
  | 1 :: target :: high :: low :: _ =>
      if high &&& 0xC0 = sam2SingleLevelLun then
        some ⟨target, ((high &&& 0x3F).setWidth 16 <<< 8) ||| low.setWidth 16,
          (bytes.drop 19).take virtioScsiCdbSize⟩
      else none
  | _ => none

theorem requestCdb_length (cdb : Cdb) : (requestCdb cdb).length = virtioScsiCdbSize := by
  unfold requestCdb
  rw [List.length_append, List.length_take, List.length_replicate]
  omega

theorem requestBytes_length (target : BitVec 8) (lunId : BitVec 16) (id : BitVec 64)
    (cdb : Cdb) : (requestBytes target lunId id cdb).length = 51 := by
  simp [requestBytes, virtioScsiSetLun, requestCdb_length, virtioScsiCdbSize]

/-- The high byte of a LUN of 14 bits leaves the two bits of the format alone. -/
theorem lunHigh_lt {lunId : BitVec 16} (hlun : lunId < 0x4000) :
    ((lunId >>> 8).setWidth 8).toNat < 64 := by
  have hbound : lunId.toNat < 16384 := hlun
  rw [BitVec.toNat_setWidth, BitVec.toNat_ushiftRight, Nat.shiftRight_eq_div_pow]
  omega

theorem lunHigh_bits {high : BitVec 8} (hhigh : high.toNat < 64) :
    (high ||| sam2SingleLevelLun) &&& 0xC0 = sam2SingleLevelLun ∧
      (high ||| sam2SingleLevelLun) &&& 0x3F = high := by
  have hall : ∀ n < 64, (BitVec.ofNat 8 n ||| sam2SingleLevelLun) &&& 0xC0 =
      sam2SingleLevelLun ∧
        (BitVec.ofNat 8 n ||| sam2SingleLevelLun) &&& 0x3F = BitVec.ofNat 8 n := by
    decide
  have h := hall high.toNat hhigh
  rwa [BitVec.ofNat_toNat, BitVec.setWidth_eq] at h

/-- The two bytes of a word, put together again. -/
theorem bytes_or (word : BitVec 16) :
    ((word >>> 8).setWidth 8).setWidth 16 <<< 8 |||
      ((word &&& 0xFF).setWidth 8).setWidth 16 = word := by
  apply BitVec.eq_of_getLsbD_eq
  intro i hi
  by_cases hlow : i < 8
  · have hmask : (255#16).getLsbD i = true := by
      interval_cases i <;> rfl
    simp [hlow, hi, hmask]
  · have hback : 8 + (i - 8) = i := by omega
    have hshort : i - 8 < 8 := by omega
    simp [hlow, hi, hback, hshort]

/-- The device finds target and LUN if the LUN has at most 14 bits: the format
has no room for more.  Write data follow the 51 bytes. -/
theorem parseRequest_requestBytes {target : BitVec 8} {lunId : BitVec 16}
    (hlun : lunId < 0x4000) (id : BitVec 64) (cdb : Cdb) (payload : List (BitVec 8)) :
    parseRequest (requestBytes target lunId id cdb ++ payload) =
      some ⟨target, lunId, requestCdb cdb⟩ := by
  obtain ⟨hlevel, hhigh⟩ := lunHigh_bits (lunHigh_lt hlun)
  have hback : ((((lunId >>> 8).setWidth 8 ||| sam2SingleLevelLun) &&& 0x3F).setWidth 16 <<< 8 |||
      ((lunId &&& 0xFF).setWidth 8).setWidth 16 : BitVec 16) = lunId := by
    rw [hhigh]
    exact bytes_or lunId
  have hcdb : ((requestBytes target lunId id cdb ++ payload).drop 19).take virtioScsiCdbSize =
      requestCdb cdb := by
    have hhead : (virtioScsiSetLun target lunId ++ List.ofFn (storeBE 8 id) ++
        [0, 0, 0]).length = 19 := by
      simp [virtioScsiSetLun]
    unfold requestBytes
    rw [List.append_assoc, List.drop_left' hhead, List.take_left' (requestCdb_length cdb)]
  have hparse : parseRequest (requestBytes target lunId id cdb ++ payload) =
      if ((lunId >>> 8).setWidth 8 ||| sam2SingleLevelLun) &&& 0xC0 = sam2SingleLevelLun then
        some ⟨target, ((((lunId >>> 8).setWidth 8 ||| sam2SingleLevelLun) &&& 0x3F).setWidth 16
            <<< 8) ||| ((lunId &&& 0xFF).setWidth 8).setWidth 16,
          ((requestBytes target lunId id cdb ++ payload).drop 19).take virtioScsiCdbSize⟩
      else none := rfl
  rw [hparse, if_pos hlevel, hback, hcdb]

/-! ## Responses -/

def virtioScsiSenseSize : ℕ := 96

/-- What a device says about a request. -/
structure DeviceAnswer where
  senseLen : BitVec 32
  residual : BitVec 32
  statusQualifier : BitVec 16
  status : BitVec 8
  response : BitVec 8
  sense : Fin virtioScsiSenseSize → BitVec 8

/-- The bytes a device stores for a field. -/
def fieldBytes (n : ℕ) (modern : Bool) (value : BitVec (8 * n)) : List (BitVec 8) :=
  List.ofFn (if modern then storeLE n value else storeBE n value)

/-- The 108 bytes of a response. -/
def answerBytes (modern : Bool) (a : DeviceAnswer) : List (BitVec 8) :=
  fieldBytes 4 modern a.senseLen ++ fieldBytes 4 modern a.residual ++
    fieldBytes 2 modern a.statusQualifier ++ [a.status, a.response] ++ List.ofFn a.sense

/-- The loads of the driver from a response buffer. -/
def readResponse (bytes : List (BitVec 8)) : Response where
  residual := loadBE 4 fun i => bytes.getD (4 + i) 0
  status := bytes.getD 10 0
  response := bytes.getD 11 0
  sense := bytes.getD 14 0

theorem fieldBytes_length (n : ℕ) (modern : Bool) (value : BitVec (8 * n)) :
    (fieldBytes n modern value).length = n :=
  List.length_ofFn

theorem answerBytes_length (modern : Bool) (a : DeviceAnswer) :
    (answerBytes modern a).length = 108 := by
  have hsense : (List.ofFn a.sense).length = 96 := List.length_ofFn
  simp only [answerBytes, List.length_append, fieldBytes_length, hsense, List.length_cons,
    List.length_nil]

theorem loadBE_fieldBytes (n : ℕ) (modern : Bool) (value : BitVec (8 * n)) :
    (loadBE n fun i => (fieldBytes n modern value).getD i 0) = deviceStore n modern value := by
  have himage : (fun i : Fin n => (fieldBytes n modern value).getD i 0) =
      if modern then storeLE n value else storeBE n value := by
    funext i
    simp [fieldBytes, List.getD_eq_getElem?_getD]
  rw [himage]
  unfold deviceStore
  split_ifs <;> rfl

/-- The driver reads status, response and residual as the device meant them. -/
theorem readResponse_answerBytes (modern : Bool) (a : DeviceAnswer) :
    readResponse (answerBytes modern a) =
      ⟨vr32 modern a.residual, a.status, a.response, a.sense ⟨2, by decide⟩⟩ := by
  have hbyte : ∀ i (hi : i < 4), (answerBytes modern a).getD (4 + i) 0 =
      (fieldBytes 4 modern a.residual).getD i 0 := by
    intro i hi
    unfold answerBytes
    simp only [List.append_assoc]
    rw [List.getD_append_right _ _ _ _ (by rw [fieldBytes_length]; omega), fieldBytes_length,
      Nat.add_sub_cancel_left,
      List.getD_append _ _ _ _ (by rw [fieldBytes_length]; exact hi)]
  have htail : ∀ i, (answerBytes modern a).getD (10 + i) 0 =
      ([a.status, a.response] ++ List.ofFn a.sense).getD i 0 := by
    intro i
    unfold answerBytes
    rw [List.append_assoc, List.getD_append_right _ _ _ _ (by simp [fieldBytes_length])]
    simp [fieldBytes_length]
  unfold readResponse
  rw [show (fun i : Fin 4 => (answerBytes modern a).getD (4 + i) 0) =
    fun i : Fin 4 => (fieldBytes 4 modern a.residual).getD i 0 from
      funext fun i => hbyte i i.isLt, loadBE_fieldBytes 4, deviceStore_four]
  rw [show (10 : ℕ) = 10 + 0 from rfl, htail 0, htail 1, htail 4]
  rfl

theorem residualNative_answerBytes (modern : Bool) (a : DeviceAnswer) :
    (readResponse (answerBytes modern a)).residualNative modern = a.residual := by
  rw [readResponse_answerBytes]
  exact vr32_vr32 modern a.residual

end VirtioScsi
