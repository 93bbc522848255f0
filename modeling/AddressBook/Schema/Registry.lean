import AddressBook.Schema.Basic

/-! The attributes of both classes, in the order in which they are listed and read. Attributes are
found whatever the case of their names. -/

namespace AddressBook.Schema

def nameAttribute : String := "__NAME__"
def uidAttribute : String := "__UID__"
def enableAttribute : String := "__ENABLE__"
def passwordAttribute : String := "__PASSWORD__"
def currentPasswordAttribute : String := "__CURRENT_PASSWORD__"

def textual (name : String) : Attribute := { name }

def many (name : String) : Attribute := { name, multiValued := true }

def readOnly (name : String) : Attribute := { name, updateable := false, creatable := false }

def concealed (name : String) : Attribute :=
  { name, type := .secret, readable := false, unasked := false }

def integral (name : String) (coercion : Coercion) : Attribute :=
  { name, type := .integer, coercion := some coercion }

def lastModified : Attribute := { readOnly "LastModified" with type := .long }

def accountAttributes : List Attribute :=
  [{ name := nameAttribute, required := true },
   { name := enableAttribute, type := .boolean, operational := true },
   { concealed passwordAttribute with operational := true },
   { concealed currentPasswordAttribute with operational := true },
   readOnly "FullName"] ++
  ["FirstName", "MiddleInitial", "LastName", "ShortName", "InternetAddress", "MailAddress",
   "MailDomain", "MailFile", "MailServer", "MailSystem", "Comment", "CompanyName", "Department",
   "EmployeeID", "JobTitle", "Location", "Manager", "OfficePhoneNumber", "CellPhoneNumber",
   "Title", "AltFullName", "AltFullNameLanguage"].map textual ++
  [many "AltOrgUnit",
   readOnly "OrgUnit",
   readOnly "CertifierOrgHierarchy",
   many "GroupList",
   { many "DenyGroups" with readable := false, unasked := false },
   concealed "HTTPPassword",
   integral "PasswordChangeInterval" .fromNumber,
   integral "PasswordGracePeriod" .fromNumber,
   integral "RoamCleanPer" .fromNumber,
   integral "RoamCleanSetting" .fromText,
   textual "CheckPassword",
   lastModified,
   readOnly "objectGUID"]

def groupAttributes : List Attribute :=
  [{ name := nameAttribute, required := true },
   many "ListName",
   readOnly "DisplayName",
   integral "GroupType" .fromText,
   textual "ListCategory",
   textual "ListDescription",
   textual "Comments",
   textual "GroupTitle",
   many "Members",
   { many "MemberGroups" with unasked := false },
   { many "MemberPeople" with unasked := false },
   lastModified,
   readOnly "objectGUID"]

def attributes : EntryClass → List Attribute
  | .account => accountAttributes
  | .group => groupAttributes

def find? (kind : EntryClass) (name : String) : Option Attribute :=
  (attributes kind).find? fun a => Text.sameAscii a.name name

def classJson (kind : EntryClass) : Json :=
  .object [("attributes", .list ((attributes kind).map Attribute.toJson)),
    ("objectClass", .text kind.word)]

def json : Json :=
  .object [("objectClasses", .list [classJson .account, classJson .group])]

/-- The group type of deny-access lists. -/
def denyListType : Int := 3

end AddressBook.Schema
