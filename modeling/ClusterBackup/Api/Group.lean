/-!
# Names in the API

The group and version under which backups and clusters are served, and their kinds.
-/

namespace ClusterBackup.Api

def group : String := "pxc.percona.com"

def version : String := "v1alpha1"

def groupVersion : String := group ++ "/" ++ version

def backupKind : String := "PerconaXtraDBBackup"

def backups : String := "perconaxtradbbackups"

def clusters : String := "perconaxtradbclusters"

end ClusterBackup.Api
