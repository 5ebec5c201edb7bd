/-
  What can go wrong with the remote drive.

  * `ConfigError`: the settings of the drive do not suffice;
  * `DriveError`: a request was not sent, or its reply is of no use;
  * `ConversionError`: a spreadsheet was not converted;
  * `DeliveryError`: an artifact was not delivered.

  Each has a function `message` with its text.
-/

namespace Waybill.Drive

/-- Why the settings of the drive do not suffice. -/
inductive ConfigError where
  | missingCredentials (names : List String)
  | missingDrive
  deriving DecidableEq, Inhabited

/-- The text of an error. -/
def ConfigError.message : ConfigError → String
  | .missingCredentials names =>
    "missing Microsoft Graph credentials (" ++ ", ".intercalate names ++ ")"
  | .missingDrive => "missing Graph drive id"

/-- The part of the work that a request belongs to. -/
inductive Stage where
  | token
  | upload
  | exporting
  | deletion
  deriving DecidableEq, Inhabited

/-- The name of a stage. -/
def Stage.name : Stage → String
  | .token => "token"
  | .upload => "upload"
  | .exporting => "export"
  | .deletion => "delete"

/-- Why a request to the drive came to nothing. -/
inductive DriveError where
  | configuration (error : ConfigError)
  | insecure (url : String)
  | invalidUrl (url reason : String)
  | transport (stage : Stage) (detail : String)
  | http (stage : Stage) (status : Nat) (body : String)
  | invalidReply (stage : Stage) (reason : String)
  deriving DecidableEq, Inhabited

/-- The text of an error. -/
def DriveError.message : DriveError → String
  | .configuration e => e.message
  | .insecure url => "Graph endpoint must use HTTPS: " ++ url
  | .invalidUrl url reason => "invalid Graph URL " ++ url ++ ": " ++ reason
  | .transport stage detail => stage.name ++ " request failed: " ++ detail
  | .http stage status body =>
    stage.name ++ " failed with HTTP " ++ toString status ++ ": " ++ body
  | .invalidReply stage reason => "invalid " ++ stage.name ++ " response payload: " ++ reason

/-- Why a spreadsheet was not converted. -/
inductive ConversionError where
  | emptyPayload
  | missingFilename
  | drive (error : DriveError)
  | notPdf
  deriving DecidableEq, Inhabited

/-- The text of an error. -/
def ConversionError.message : ConversionError → String
  | .emptyPayload => "excel payload is empty"
  | .missingFilename => "filename is required for conversion"
  | .drive e => e.message
  | .notPdf => "conversion did not return a valid PDF payload"

/-- Why an artifact was not delivered. -/
inductive DeliveryError where
  | missingPdf
  | emptyPdf
  | drive (error : DriveError)
  | unexpectedStatus (status : Nat)
  deriving DecidableEq, Inhabited

/-- The text of an error. -/
def DeliveryError.message : DeliveryError → String
  | .missingPdf => "artifact has no PDF file to upload"
  | .emptyPdf => "artifact PDF payload is empty"
  | .drive e => e.message
  | .unexpectedStatus status =>
    "upload failed with unexpected status code " ++ toString status

end Waybill.Drive
