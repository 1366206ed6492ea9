/-!
# Storage errors

Every failure of a storage service, and the four classes that callers tell
apart.
-/

namespace LeasedListener

inductive ErrorClass
  /-- Trouble of the service or the network: worth another attempt. -/
  | transient
  /-- A lease or a claim belongs to someone else. -/
  | conflict
  /-- The object, container, queue or message does not exist. -/
  | notFound
  /-- Anything else. -/
  | fatal
deriving DecidableEq

namespace ErrorCode

def leaseAlreadyPresent : String := "LeaseAlreadyPresent"
def leaseIdMismatch : String := "LeaseIdMismatchWithLeaseOperation"
def leaseNotPresent : String := "LeaseNotPresentWithLeaseOperation"
def blobNotFound : String := "BlobNotFound"
def containerBeingDeleted : String := "ContainerBeingDeleted"
def queueNotFound : String := "QueueNotFound"
def queueBeingDeleted : String := "QueueBeingDeleted"
def messageNotFound : String := "MessageNotFound"
def popReceiptMismatch : String := "PopReceiptMismatch"
def serverBusy : String := "ServerBusy"

end ErrorCode

inductive StorageError
  /-- The service answered with an error status. -/
  | status (number : UInt16) (code detail : String)
  | timeout (detail : String)
  | connection (detail : String)
  | other (detail : String)
deriving DecidableEq

/-- The class of a status answer.  A resource that is being deleted is in
flux, whatever status comes with it. -/
def classifyStatus (status : UInt16) (code : String) : ErrorClass :=
  if code = ErrorCode.queueBeingDeleted ∨ code = ErrorCode.containerBeingDeleted then .transient
  else if status = 400 ∧ code = ErrorCode.popReceiptMismatch then .conflict
  else if status = 404 then .notFound
  else if status = 409 ∨ status = 412 then .conflict
  else if status = 408 ∨ (500 ≤ status ∧ status ≤ 599) then .transient
  else .fatal

namespace StorageError

def leaseAlreadyPresent (object : String) : StorageError :=
  .status 409 ErrorCode.leaseAlreadyPresent s!"there is already a lease present on '{object}'"

def leaseIdMismatch (object : String) : StorageError :=
  .status 409 ErrorCode.leaseIdMismatch
    s!"the lease id specified did not match the lease on '{object}'"

def leaseNotPresent (object : String) : StorageError :=
  .status 409 ErrorCode.leaseNotPresent s!"there is currently no lease on '{object}'"

def blobNotFound (object : String) : StorageError :=
  .status 404 ErrorCode.blobNotFound s!"blob '{object}' does not exist"

def queueNotFound (queue : String) : StorageError :=
  .status 404 ErrorCode.queueNotFound s!"queue '{queue}' does not exist"

def queueBeingDeleted (queue : String) : StorageError :=
  .status 409 ErrorCode.queueBeingDeleted s!"queue '{queue}' is being deleted"

def messageNotFound (message : String) : StorageError :=
  .status 404 ErrorCode.messageNotFound s!"message '{message}' does not exist"

def popReceiptMismatch (message : String) : StorageError :=
  .status 400 ErrorCode.popReceiptMismatch
    s!"pop receipt does not match the current claim on message '{message}'"

def serverBusy : StorageError := .status 503 ErrorCode.serverBusy "the server is busy"

/-- The service's own code, where it sent one. -/
def code? : StorageError → Option String
  | .status _ code _ => some code
  | _ => none

def errorClass : StorageError → ErrorClass
  | .status number code _ => classifyStatus number code
  | .timeout _ | .connection _ => .transient
  | .other _ => .fatal

def message : StorageError → String
  | .status number code detail =>
      s!"storage request failed with status {number} ({code}): {detail}"
  | .timeout detail => s!"storage request timed out: {detail}"
  | .connection detail => s!"storage connection failed: {detail}"
  | .other detail => s!"storage error: {detail}"

def isFatal (e : StorageError) : Bool := e.errorClass == .fatal

@[simp] theorem errorClass_leaseAlreadyPresent (object : String) :
    (leaseAlreadyPresent object).errorClass = .conflict := by
  simp [leaseAlreadyPresent, errorClass, classifyStatus, ErrorCode.leaseAlreadyPresent,
    ErrorCode.queueBeingDeleted, ErrorCode.containerBeingDeleted]

@[simp] theorem errorClass_leaseIdMismatch (object : String) :
    (leaseIdMismatch object).errorClass = .conflict := by
  simp [leaseIdMismatch, errorClass, classifyStatus, ErrorCode.leaseIdMismatch,
    ErrorCode.queueBeingDeleted, ErrorCode.containerBeingDeleted]

@[simp] theorem errorClass_leaseNotPresent (object : String) :
    (leaseNotPresent object).errorClass = .conflict := by
  simp [leaseNotPresent, errorClass, classifyStatus, ErrorCode.leaseNotPresent,
    ErrorCode.queueBeingDeleted, ErrorCode.containerBeingDeleted]

@[simp] theorem errorClass_blobNotFound (object : String) :
    (blobNotFound object).errorClass = .notFound := by
  simp [blobNotFound, errorClass, classifyStatus, ErrorCode.blobNotFound,
    ErrorCode.queueBeingDeleted, ErrorCode.containerBeingDeleted]

@[simp] theorem errorClass_queueNotFound (queue : String) :
    (queueNotFound queue).errorClass = .notFound := by
  simp [queueNotFound, errorClass, classifyStatus, ErrorCode.queueNotFound,
    ErrorCode.queueBeingDeleted, ErrorCode.containerBeingDeleted]

@[simp] theorem errorClass_messageNotFound (message : String) :
    (messageNotFound message).errorClass = .notFound := by
  simp [messageNotFound, errorClass, classifyStatus, ErrorCode.messageNotFound,
    ErrorCode.queueBeingDeleted, ErrorCode.containerBeingDeleted]

@[simp] theorem errorClass_popReceiptMismatch (message : String) :
    (popReceiptMismatch message).errorClass = .conflict := by
  simp [popReceiptMismatch, errorClass, classifyStatus, ErrorCode.popReceiptMismatch,
    ErrorCode.queueBeingDeleted, ErrorCode.containerBeingDeleted]

end StorageError

end LeasedListener
