import FunctionManifest.Text.Letter

/-! # Constants that every source shares -/

namespace FunctionManifest

inductive Constant where
  | reset
  | bucketPicker
  | databaseUrl
  | projectId
  | cloudProject
  | storageBucket
  deriving DecidableEq, Inhabited, Repr

namespace Constant

def label : Constant → String
  | .reset => "RESET_VALUE"
  | .bucketPicker => "BUCKET_PICKER"
  | .databaseUrl => "DATABASE_URL"
  | .projectId => "PROJECT_ID"
  | .cloudProject => "GCLOUD_PROJECT"
  | .storageBucket => "STORAGE_BUCKET"

def all : List Constant :=
  [.reset, .bucketPicker, .databaseUrl, .projectId, .cloudProject, .storageBucket]

def ofLabel? (label : Text) : Option Constant := all.find? (label = ·.label)

end Constant

end FunctionManifest
