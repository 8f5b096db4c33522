/-!
# Failures of the store

What can go wrong when tables are read or written, and how it is said.
-/
namespace RepoCatalog

/-- Why the database refuses a statement. -/
inductive DatabaseFault where
  | takenName
  | takenSpec
  | takenUsername
  | danglingReference
  | missingTable (table : String)
deriving DecidableEq, Inhabited

def DatabaseFault.message : DatabaseFault → String
  | .takenName => "(code: 2067) UNIQUE constraint failed: index 'idx_repos_name_unique'"
  | .takenSpec => "(code: 2067) UNIQUE constraint failed: repos.external_service_type, " ++
      "repos.external_service_id, repos.external_id"
  | .takenUsername => "(code: 2067) UNIQUE constraint failed: users.username"
  | .danglingReference => "(code: 787) FOREIGN KEY constraint failed"
  | .missingTable table => s!"(code: 1) no such table: {table}"

inductive DatabaseError where
  | refusedRead (fault : DatabaseFault)
  | refusedWrite (fault : DatabaseFault)
  | nothingUpdated
  | custom (detail : String)
deriving DecidableEq, Inhabited

def DatabaseError.message : DatabaseError → String
  | .refusedRead fault => s!"Query Error: error returned from database: {fault.message}"
  | .refusedWrite fault => s!"Execution Error: error returned from database: {fault.message}"
  | .nothingUpdated => "None of the records are updated"
  | .custom detail => s!"Custom Error: {detail}"

inductive StoreError where
  | database (error : DatabaseError)
  | serviceNotFound (id : Int)
  | noCloudDefault (serviceType : String)
  | invalid (detail : String)
deriving DecidableEq, Inhabited

def StoreError.message : StoreError → String
  | .database error => s!"database error: {error.message}"
  | .serviceNotFound id => s!"external service {id} not found"
  | .noCloudDefault serviceType =>
    s!"no cloud default external service for service type {serviceType}"
  | .invalid detail => s!"invalid stored value: {detail}"

end RepoCatalog
