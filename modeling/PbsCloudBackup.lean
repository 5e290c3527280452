import PbsCloudBackup.Text
import PbsCloudBackup.Location
import PbsCloudBackup.Jobs
import PbsCloudBackup.Backup.Model
import PbsCloudBackup.Backup.Trace
import PbsCloudBackup.Backup.Snapshot
import PbsCloudBackup.Backup.Worker
import PbsCloudBackup.Backup.ChunkStream
import PbsCloudBackup.Backup.Invariant
import PbsCloudBackup.Backup.Rotation
import PbsCloudBackup.Backup.Commit
import PbsCloudBackup.Backup.Abort
import PbsCloudBackup.Backup.Retry
import PbsCloudBackup.Backup.Progress
import PbsCloudBackup.Backup.Selection
import PbsCloudBackup.Backup.Failures
import PbsCloudBackup.Backup.Ordering
import PbsCloudBackup.Backup.Catalog
import PbsCloudBackup.Backup.Outcome
import PbsCloudBackup.Backup.Fuel
import PbsCloudBackup.Backup.Load
import PbsCloudBackup.Backup.Entry
import PbsCloudBackup.Maintenance
import PbsCloudBackup.Acl
import PbsCloudBackup.MediaPool
